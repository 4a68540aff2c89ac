import Jabsocket.Safety

/-!
# The receive loops and frame lengths which wrap

`get_frame` adds the header length and the payload length which the peer announces, an `int` whose
sign is extended to `size_t`.  The sum of a frame just beyond 4 GiB wraps to 0 or 1, in 32 bits as
in 64; such a frame is ready as soon as its header is, and vanishes without leaving `frame_buffer`.
The loops of `_wsmsg_process` and `wsconn_process_frame` make progress exactly as long as they do
not come to such a frame.
-/

namespace Jabsocket

/-! ## Frames which vanish -/

/-- The source begins with the header of a frame of 2^32 or 2^32 + 1 bytes, and the destination can
be enlarged for its payload. -/
def Vanishes (sizeMod : Nat) (source dest : Buffer) : Prop :=
  2 ≤ source.data.length ∧ byteAt source.data 0 &&& 0x70 = 0 ∧
    ∃ messageLength headerLength,
      frameHeader (byteAt source.data) source.data.length = some (messageLength, headerLength) ∧
      2 ^ 32 ≤ payloadStart (byteAt source.data) headerLength + messageLength ∧
      payloadStart (byteAt source.data) headerLength + messageLength < 2 ^ 32 + 2 ∧
      (bufferSetPlan sizeMod dest (intToSize sizeMod messageLength)).isSome = true

/-- In any `size_t`, a negative length is 2^32 less than what was announced. -/
theorem frameLength_of_wraps {sizeMod : Nat} (wide : 2 ^ 32 ≤ sizeMod) {start messageLength : Nat}
    (start_le : start ≤ 14) (bits : messageLength < 2 ^ 32)
    (wraps : 2 ^ 32 ≤ start + messageLength) :
    sizeAdd sizeMod start (intToSize sizeMod messageLength) = start + messageLength - 2 ^ 32 := by
  have extended : intToSize sizeMod messageLength = messageLength + (sizeMod - 2 ^ 32) :=
    if_neg (by omega)
  rw [extended, sizeAdd, Nat.mod_eq_sub_mod (by omega), Nat.mod_eq_of_lt (by omega)]
  omega

theorem two_le_frameLength {sizeMod : Nat} (wide : 2 ^ 32 ≤ sizeMod) {start messageLength : Nat}
    (two_le : 2 ≤ start) (fits : start + messageLength < 2 ^ 32) :
    2 ≤ sizeAdd sizeMod start (intToSize sizeMod messageLength) := by
  unfold intToSize
  split <;> rw [sizeAdd_of_lt (by omega)] <;> omega

/-! ## The loop of `_wsmsg_process` -/

section Inner

variable {sizeMod : Nat} {heap : Heap}

/-- The loop of `_wsmsg_process` ends, and every frame which is ready takes at least two bytes out
of `frame_buffer`. -/
structure ProcessEnds (sizeMod : Nat) (heap : Heap) (wsmsg : WsMsg) : Prop where
  removes : ∀ visited, Loop.Visits (wsmsgProcessRound sizeMod heap) wsmsg visited →
    visited.Removes sizeMod heap
  ends : ∃ rounds final, Loop.iterate (wsmsgProcessRound sizeMod heap) rounds wsmsg = some final

/-- The loop of `_wsmsg_process` does not come to a frame which vanishes. -/
def NeverVanishes (sizeMod : Nat) (heap : Heap) (wsmsg : WsMsg) : Prop :=
  ∀ visited, Loop.Visits (wsmsgProcessRound sizeMod heap) wsmsg visited →
    ¬ Vanishes sizeMod visited.frameBuffer visited.frameData

/-- A frame which vanishes is ready, and removed as if it had 2^32 bytes less. -/
theorem getFrame_of_wraps (wide : 2 ^ 32 ≤ sizeMod) (heap : Heap) {source dest : Buffer}
    (two_le : 2 ≤ source.data.length) (plain : byteAt source.data 0 &&& 0x70 = 0)
    {messageLength headerLength : Nat}
    (announced : frameHeader (byteAt source.data) source.data.length =
      some (messageLength, headerLength))
    (low : 2 ^ 32 ≤ payloadStart (byteAt source.data) headerLength + messageLength)
    (high : payloadStart (byteAt source.data) headerLength + messageLength < 2 ^ 32 + 2)
    (planned : (bufferSetPlan sizeMod dest (intToSize sizeMod messageLength)).isSome = true) :
    ∃ mask stored, stored.maxLength = dest.maxLength ∧
      getFrame sizeMod heap source dest =
        .ready (byteAt source.data 0 &&& 0x80 ≠ 0) (byteAt source.data 0 &&& 0x0f).toNat mask
          (bufferRemoveData source
            (payloadStart (byteAt source.data) headerLength + messageLength - 2 ^ 32)) stored := by
  obtain ⟨bits, -, header_le, -⟩ := frameHeader_bounds announced two_le
  have start_le := payloadStart_le (byteAt source.data) headerLength
  obtain ⟨⟨length, capacity⟩, plan⟩ := Option.isSome_iff_exists.mp planned
  have computed := @getFrame_of_announced sizeMod source dest heap (Or.inr wide) two_le plain
    messageLength headerLength announced
  rw [bufferSetMemory, plan, frameLength_of_wraps wide (by omega) bits low] at computed
  dsimp only at computed
  rw [if_neg (by omega)] at computed
  refine ⟨_, _, ?_, computed⟩
  split <;> rfl

/-- Ready frames are removed exactly as long as they do not vanish. -/
theorem removes_iff (wide : 2 ^ 32 ≤ sizeMod) {wsmsg : WsMsg} :
    wsmsg.Removes sizeMod heap ↔ ¬ Vanishes sizeMod wsmsg.frameBuffer wsmsg.frameData := by
  constructor
  · rintro removes ⟨two_le, plain, _, _, announced, low, high, planned⟩
    obtain ⟨mask, stored, -, ready⟩ :=
      getFrame_of_wraps wide heap two_le plain announced low high planned
    have removed := removes _ _ _ _ _ ready
    simp only [Buffer.length, bufferRemoveData_data, List.length_drop] at removed
    omega
  · intro kept fin opcode mask source dest ready
    by_cases short : wsmsg.frameBuffer.data.length < 2
    · simp [getFrame, Buffer.length, short] at ready
    have two_le : 2 ≤ wsmsg.frameBuffer.data.length := Nat.not_lt.mp short
    have byte₀ := readByte_eq_byteAt heap (show 0 < wsmsg.frameBuffer.data.length by omega)
    by_cases plain : byteAt wsmsg.frameBuffer.data 0 &&& 0x70 = 0
    swap
    · simp [getFrame, Buffer.length, short, byte₀, plain] at ready
    have header := frameHeader_congr (byteAt wsmsg.frameBuffer.data)
      (fun index inside => readByte_eq_byteAt heap inside) two_le
    cases announced : frameHeader (byteAt wsmsg.frameBuffer.data)
      wsmsg.frameBuffer.data.length with
    | none => simp [getFrame, Buffer.length, short, byte₀, plain, header, announced] at ready
    | some lengths =>
        obtain ⟨messageLength, headerLength⟩ := lengths
        obtain ⟨bits, header_ge, header_le, -⟩ := frameHeader_bounds announced two_le
        have start_ge := le_payloadStart (byteAt wsmsg.frameBuffer.data) headerLength
        have start_le := payloadStart_le (byteAt wsmsg.frameBuffer.data) headerLength
        rw [getFrame_of_announced heap (Or.inr wide) two_le plain announced,
          bufferSetMemory] at ready
        cases plan : bufferSetPlan sizeMod wsmsg.frameData (intToSize sizeMod messageLength) with
        | none =>
            rw [plan] at ready
            cases ready
        | some copied =>
            rw [plan] at ready
            dsimp only at ready
            split_ifs at ready with incomplete
            all_goals
              injection ready with _ _ _ source_eq _
              have counted : 2 ≤ sizeAdd sizeMod
                  (payloadStart (byteAt wsmsg.frameBuffer.data) headerLength)
                  (intToSize sizeMod messageLength) := by
                by_cases low : 2 ^ 32 ≤
                    payloadStart (byteAt wsmsg.frameBuffer.data) headerLength + messageLength
                · rw [frameLength_of_wraps wide (by omega) bits low]
                  by_contra below
                  exact kept ⟨two_le, plain, _, _, announced, low, by omega, by rw [plan]; rfl⟩
                · exact two_le_frameLength wide (by omega) (by omega)
              rw [← source_eq]
              simp only [Buffer.length, bufferRemoveData_data, List.length_drop]
              omega

/-- When every ready frame is removed, the loop ends, and leaves the caller no more to see. -/
theorem exists_leave_of_removes {wsmsg : WsMsg}
    (removes : ∀ visited, Loop.Visits (wsmsgProcessRound sizeMod heap) wsmsg visited →
      visited.Removes sizeMod heap) :
    ∃ rounds, Loop.iterate (wsmsgProcessRound sizeMod heap) rounds wsmsg =
        some (wsmsgProcessLoop sizeMod heap wsmsg) ∧
      pendingMeasure (wsmsgProcessLoop sizeMod heap wsmsg) ≤ pendingMeasure wsmsg := by
  obtain ⟨last, final, visits, leave, execution⟩ := Loop.exists_leave_of_visits
    (show ∀ visited next, Loop.Visits (wsmsgProcessRound sizeMod heap) wsmsg visited →
        wsmsgProcessRound sizeMod heap visited = .again next →
        next.frameBuffer.length < visited.frameBuffer.length from
      fun visited next visits again => by
        have := (wsmsgProcessRound_again (removes visited visits) again).1
        omega)
  have final_eq : wsmsgProcessLoop sizeMod heap wsmsg = final := by
    rw [wsmsgProcessLoop, Loop.run, execution]
    rfl
  refine ⟨_, final_eq ▸ execution, ?_⟩
  have earlier : pendingMeasure last ≤ pendingMeasure wsmsg := by
    clear leave execution final_eq
    induction visits with
    | start => exact Nat.le_refl _
    | round again _ ih =>
        exact (ih fun visited visits => removes visited (.round again visits)).trans
          (wsmsgProcessRound_again_pending (removes _ .start) again)
  rw [final_eq]
  exact (wsmsgProcessRound_leave (removes last visits) leave).trans earlier

/-- The loop of `_wsmsg_process` makes progress and ends exactly when it does not come to a frame
which vanishes. -/
theorem processEnds_iff (wide : 2 ^ 32 ≤ sizeMod) {wsmsg : WsMsg} :
    ProcessEnds sizeMod heap wsmsg ↔ NeverVanishes sizeMod heap wsmsg := by
  constructor
  · intro ends visited visits
    exact (removes_iff wide).mp (ends.removes visited visits)
  · intro never
    have removes (visited : WsMsg)
        (visits : Loop.Visits (wsmsgProcessRound sizeMod heap) wsmsg visited) :
        visited.Removes sizeMod heap :=
      (removes_iff wide).mpr (never visited visits)
    obtain ⟨rounds, execution, -⟩ := exists_leave_of_removes removes
    exact ⟨removes, rounds, _, execution⟩

end Inner

/-! ## The loop of `wsconn_process_frame` -/

section Outer

variable {sizeMod : Nat} {env : Environment} {sync : Bool}

/-- The receiver with which a round comes to the loop of `_wsmsg_process`, if it does. -/
def Conn.entered (conn : Conn) : Option WsMsg :=
  if conn.wsmsg.error then none
  else if conn.wsmsg.frame then
    if conn.wsmsg.message then none
    else
      some
        { conn.wsmsg with
          frame := false
          frameData := (bufferMove 0 conn.wsmsg.frameData (bufferCreate 0)).1 }
  else if conn.wsmsg.message then
    some
      { conn.wsmsg with
        message := false
        messageStarted := false
        messageBuffer := (bufferMove 0 conn.wsmsg.messageBuffer conn.messageBuffer).1 }
  else none

/-- When a control frame is parked, the receiver is processed with the frame taken out of it. -/
theorem wsmsgGetFrame_wsmsg {heap : Heap} {wsmsg : WsMsg} (parked : wsmsg.frame = true)
    (buffer : Buffer) (fin : Bool) (opcode : Nat) (mask : Bool) :
    (wsmsgGetFrame sizeMod heap wsmsg buffer fin opcode mask).wsmsg =
      wsmsgProcess sizeMod heap
        { wsmsg with
          frame := false
          frameData := (bufferMove 0 wsmsg.frameData buffer).1 } := by
  simp only [wsmsgGetFrame, parked, Bool.not_true, Bool.false_eq_true, if_false]

/-- When a message waits, the receiver is processed with the message taken out of it. -/
theorem wsmsgGetMessage_wsmsg {heap : Heap} {wsmsg : WsMsg} (waiting : wsmsg.message = true)
    (buffer : Buffer) (opcode : Nat) :
    (wsmsgGetMessage sizeMod heap wsmsg buffer opcode).wsmsg =
      wsmsgProcess sizeMod heap
        { wsmsg with
          message := false
          messageStarted := false
          messageBuffer := (bufferMove 0 wsmsg.messageBuffer buffer).1 } := by
  simp only [wsmsgGetMessage, waiting, Bool.not_true, Bool.false_eq_true, if_false]

/-- How a round leaves the receiver behind: the loop of `_wsmsg_process` was run on a receiver with
less to see, or the receiver itself has less to see. -/
inductive Conn.Hands (sizeMod : Nat) (heap : Heap) (conn : Conn) (wsmsg : WsMsg) : Prop
  | enters {entered : WsMsg} (enters : conn.entered = some entered)
      (processed : wsmsg = wsmsgProcessLoop sizeMod heap entered)
      (less : pendingMeasure entered < pendingMeasure conn.wsmsg)
  | keeps (passes : conn.entered = none)
      (less : pendingMeasure wsmsg < pendingMeasure conn.wsmsg)

theorem Conn.hands_of_frame {conn : Conn} (heap : Heap) (healthy : conn.wsmsg.error = false)
    (parked : conn.wsmsg.frame = true) :
    conn.Hands sizeMod heap
      (wsmsgGetFrame sizeMod heap conn.wsmsg (bufferCreate 0) false 0 false).wsmsg := by
  rw [wsmsgGetFrame_wsmsg parked]
  by_cases message : conn.wsmsg.message = true
  · refine .keeps ?_ ?_
    · rw [Conn.entered, if_neg (by simp [healthy]), if_pos parked, if_pos message]
    · rw [wsmsgProcess, if_pos (by simp [message])]
      simp [pendingMeasure, parked]
  · refine .enters ?_ (if_neg (by simp [healthy, message])) ?_
    · rw [Conn.entered, if_neg (by simp [healthy]), if_pos parked, if_neg message]
    · simp [pendingMeasure, parked]

theorem Conn.hands_of_message {conn : Conn} (heap : Heap) (healthy : conn.wsmsg.error = false)
    (unparked : conn.wsmsg.frame = false) (waiting : conn.wsmsg.message = true) :
    conn.Hands sizeMod heap
      (wsmsgGetMessage sizeMod heap conn.wsmsg conn.messageBuffer 0).wsmsg := by
  rw [wsmsgGetMessage_wsmsg waiting]
  refine .enters ?_ (if_neg (by simp [healthy, unparked])) ?_
  · rw [Conn.entered, if_neg (by simp [healthy]), if_neg (by simp [unparked]), if_pos waiting]
  · simp [pendingMeasure, waiting]

theorem frameRoundSized_again {conn next : Conn}
    (again : frameRoundSized sizeMod env sync conn = .again next) :
    conn.Hands sizeMod env.heap next.wsmsg := by
  unfold frameRoundSized at again
  dsimp only at again
  split_ifs at again with failed parked result close ping idle isText isBinary
  · obtain rfl := Round.again.inj again
    exact Conn.hands_of_frame env.heap (by simpa using failed) parked
  · obtain rfl := Round.again.inj again
    rw [cmOnmessage_wsmsg]
    exact Conn.hands_of_message env.heap (by simpa using failed) (by simpa using parked)
      (by simpa using idle)
  · obtain rfl := Round.again.inj again
    exact Conn.hands_of_message env.heap (by simpa using failed) (by simpa using parked)
      (by simpa using idle)

/-- The loop of `wsconn_process_frame` ends: so do all loops of `_wsmsg_process` which it comes to,
and every round but the last lowers the measure of the receiver. -/
structure FrameLoopEnds (sizeMod : Nat) (env : Environment) (sync : Bool) (conn : Conn) : Prop where
  inner : ∀ visited entered, Loop.Visits (frameRoundSized sizeMod env sync) conn visited →
    visited.entered = some entered → ProcessEnds sizeMod env.heap entered
  drops : ∀ visited next, Loop.Visits (frameRoundSized sizeMod env sync) conn visited →
    frameRoundSized sizeMod env sync visited = .again next →
      pendingMeasure next.wsmsg < pendingMeasure visited.wsmsg
  ends : ∃ rounds final, Loop.iterate (frameRoundSized sizeMod env sync) rounds conn = some final

/-- The loop of `wsconn_process_frame` makes progress and ends exactly when none of the loops of
`_wsmsg_process` which it comes to meets a frame which vanishes. -/
theorem frameLoopEnds_iff (wide : 2 ^ 32 ≤ sizeMod) {conn : Conn} :
    FrameLoopEnds sizeMod env sync conn ↔
      ∀ visited entered, Loop.Visits (frameRoundSized sizeMod env sync) conn visited →
        visited.entered = some entered → NeverVanishes sizeMod env.heap entered := by
  constructor
  · intro ends visited entered visits enters
    exact (processEnds_iff wide).mp (ends.inner visited entered visits enters)
  · intro never
    have drops (visited next : Conn)
        (visits : Loop.Visits (frameRoundSized sizeMod env sync) conn visited)
        (again : frameRoundSized sizeMod env sync visited = .again next) :
        pendingMeasure next.wsmsg < pendingMeasure visited.wsmsg := by
      cases frameRoundSized_again again with
      | @enters entered enters processed less =>
          have ends := (processEnds_iff wide).mpr (never visited entered visits enters)
          obtain ⟨-, -, bounded⟩ := exists_leave_of_removes ends.removes
          rw [processed]
          exact bounded.trans_lt less
      | keeps _ less => exact less
    obtain ⟨last, final, -, -, execution⟩ := Loop.exists_leave_of_visits drops
    exact ⟨fun visited entered visits enters =>
      (processEnds_iff wide).mpr (never visited entered visits enters), drops, _, _, execution⟩

/-- A receiver with the given bytes in `frame_buffer`. -/
def receiverWith (bytes : List UInt8) : WsMsg :=
  { wsmsgCreate 1000 1000 with frameBuffer := { bufferCreate 2000 with data := bytes } }

/-- A connection of the sessions, with the given receiver. -/
def connectionWith (wsmsg : WsMsg) : Conn :=
  { wsconnCreate sessionEnvironment with wsState := .receiving, wsmsg }

/-- In a `size_t` of at least 32 bits the receive loops make progress and end exactly when they do
not come to a frame whose length wraps to less than two. -/
theorem receive_loops_end_iff {width : Nat} (narrow : 32 ≤ width) (env : Environment) (sync : Bool)
    (conn : Conn) :
    (ProcessEnds (2 ^ width) env.heap conn.wsmsg ↔
        NeverVanishes (2 ^ width) env.heap conn.wsmsg) ∧
      (FrameLoopEnds (2 ^ width) env sync conn ↔
        ∀ visited entered, Loop.Visits (frameRoundSized (2 ^ width) env sync) conn visited →
          visited.entered = some entered → NeverVanishes (2 ^ width) env.heap entered) := by
  have wide : 2 ^ 32 ≤ 2 ^ width := Nat.pow_le_pow_right (by decide) narrow
  exact ⟨processEnds_iff wide, frameLoopEnds_iff wide⟩

/-- An empty pong. -/
def emptyPong : List UInt8 := [0x8a, 0x80, 1, 2, 3, 4]

/-- The loop of `_wsmsg_process` takes the empty pong and ends. -/
theorem receive_loops_end_pong :
    ProcessEnds (2 ^ 64) sessionEnvironment.heap (receiverWith emptyPong) := by
  refine (receive_loops_end_iff (by decide) sessionEnvironment false
    (connectionWith (receiverWith emptyPong))).1.mpr fun visited visits => ?_
  have parks : wsmsgProcessRound (2 ^ 64) sessionEnvironment.heap (receiverWith emptyPong) =
      .leave (wsmsgProcessLoop (2 ^ 64) sessionEnvironment.heap (receiverWith emptyPong)) := by
    decide +kernel
  cases visits with
  | start =>
      rintro ⟨-, -, messageLength, headerLength, announced, low, -⟩
      have empty : frameHeader (byteAt emptyPong) 6 = some (0, 2) := by decide
      obtain ⟨rfl, rfl⟩ := Prod.mk.inj (Option.some.inj (empty.symm.trans announced))
      exact absurd low (by decide)
  | round again _ => cases parks.symm.trans again

end Outer

/-! ## A pong which never goes away -/

/-- The header of a masked pong which announces 14 bytes less than 4 GiB. -/
def vanishingPong : List UInt8 := [0x8a, 0xff, 0, 0, 0, 0, 0xff, 0xff, 0xff, 0xf2]

/-- The receiver has parked a pong and still has all of its bytes. -/
structure KeepsPong (wsmsg : WsMsg) : Prop where
  frame : wsmsg.frame = true
  message : wsmsg.message = false
  error : wsmsg.error = false
  opcode : wsmsg.opcode = opcodePong
  bytes : wsmsg.frameBuffer.data = vanishingPong
  limit : wsmsg.frameData.maxLength = 1000

/-- A limited buffer can be enlarged. -/
theorem bufferSetPlan_of_limited {sizeMod : Nat} {buffer : Buffer} (positive : 0 < buffer.maxLength)
    (bounded : buffer.maxLength + 1024 < sizeMod / 2) (count : Nat) :
    (bufferSetPlan sizeMod buffer count).isSome = true := by
  unfold bufferSetPlan
  by_cases empty : count = 0
  · rw [if_pos empty]
    rfl
  rw [if_neg empty, if_neg (Nat.pos_iff_ne_zero.mp positive)]
  dsimp only
  have length_le : (if buffer.maxLength < count then buffer.maxLength else count) ≤
      buffer.maxLength := by
    split <;> omega
  generalize (if buffer.maxLength < count then buffer.maxLength else count) = length at length_le
  rw [sizeAdd_of_lt (by omega)]
  have allocated : reallocFails sizeMod
      (if buffer.maxLength < length + 1024 then buffer.maxLength else length + 1024) = false := by
    refine reallocFails_of_lt ?_ ?_ <;> split <;> omega
  rw [allocated]
  split <;> rfl

section Endless

variable {sizeMod : Nat} (wide : 2 ^ 32 ≤ sizeMod)

include wide

theorem wsmsgProcessLoop_keepsPong (heap : Heap) {wsmsg : WsMsg} (message : wsmsg.message = false)
    (error : wsmsg.error = false) (bytes : wsmsg.frameBuffer.data = vanishingPong)
    (limit : wsmsg.frameData.maxLength = 1000) :
    KeepsPong (wsmsgProcessLoop sizeMod heap wsmsg) := by
  have announced : frameHeader (byteAt wsmsg.frameBuffer.data) wsmsg.frameBuffer.data.length =
      some (2 ^ 32 - 14, 10) := by
    rw [bytes]
    decide
  have start : payloadStart (byteAt wsmsg.frameBuffer.data) 10 = 14 := by
    rw [bytes]
    decide
  have planned := @bufferSetPlan_of_limited sizeMod wsmsg.frameData (by omega) (by omega)
    (intToSize sizeMod (2 ^ 32 - 14))
  obtain ⟨mask, stored, stored_limit, ready⟩ := getFrame_of_wraps wide heap
    (by rw [bytes]; decide) (by rw [bytes]; decide) announced (by rw [start]; decide)
    (by rw [start]; decide) planned
  have opcode : (byteAt wsmsg.frameBuffer.data 0 &&& 0x0f).toNat = opcodePong := by
    rw [bytes]
    decide
  have fin : byteAt wsmsg.frameBuffer.data 0 &&& 0x80 ≠ 0 := by
    rw [bytes]
    decide
  have control : isControl opcodePong = true := rfl
  rw [start] at ready
  have leave : ∃ final, wsmsgProcessRound sizeMod heap wsmsg = .leave final ∧ KeepsPong final := by
    simp only [wsmsgProcessRound, ready, opcode, fin, control, ne_eq, not_false_eq_true,
      decide_true, if_true]
    exact ⟨_, rfl, rfl, message, error, rfl, bytes, stored_limit.trans limit⟩
  obtain ⟨final, leave, kept⟩ := leave
  rw [wsmsgProcessLoop, Loop.run_of_leave _ leave]
  exact kept

/-- The loop of `wsconn_process_frame` takes the pong and finds it again. -/
theorem frameRoundSized_keepsPong (env : Environment) (sync : Bool) {conn : Conn}
    (kept : KeepsPong conn.wsmsg) :
    ∃ next, frameRoundSized sizeMod env sync conn = .again next ∧ KeepsPong next.wsmsg := by
  obtain ⟨emptied, -, -, moved⟩ :=
    bufferMove_unlimited conn.wsmsg.frameData (bufferCreate_maxLength 0)
  have taken := @wsmsgGetFrame_wsmsg sizeMod env.heap conn.wsmsg kept.frame (bufferCreate 0) false
    0 false
  have opcode : (wsmsgGetFrame sizeMod env.heap conn.wsmsg (bufferCreate 0) false 0 false).opcode =
      opcodePong := by
    simp only [wsmsgGetFrame, kept.frame, Bool.not_true, Bool.false_eq_true, if_false, kept.opcode]
  have result : (wsmsgGetFrame sizeMod env.heap conn.wsmsg (bufferCreate 0) false 0 false).result =
      true := by
    simp only [wsmsgGetFrame, kept.frame, Bool.not_true, Bool.false_eq_true, if_false]
    exact moved
  refine ⟨{ conn with wsmsg := (wsmsgGetFrame sizeMod env.heap conn.wsmsg (bufferCreate 0) false 0
    false).wsmsg }, ?_, ?_⟩
  · have not_close : ¬ opcodePong = opcodeClose := by decide
    have not_ping : ¬ opcodePong = opcodePing := by decide
    simp only [frameRoundSized, kept.error, kept.frame, result, opcode, not_close, not_ping,
      Bool.false_eq_true, Bool.not_true, if_false, if_true]
  · rw [taken, emptied, wsmsgProcess, if_neg (by simp [kept.message, kept.error])]
    exact wsmsgProcessLoop_keepsPong wide env.heap kept.message kept.error kept.bytes kept.limit

end Endless

/-- The ten bytes of the pong are ready and stay where they are, so the loop of `_wsmsg_process`
makes no progress, and once they are received the loop of `wsconn_process_frame` never ends. -/
structure Endless (sizeMod : Nat) : Prop where
  inner : ¬ ProcessEnds sizeMod sessionEnvironment.heap (receiverWith vanishingPong)
  outer : ∀ rounds, Loop.iterate (frameRoundSized sizeMod sessionEnvironment false) rounds
    (connectionWith
      (wsmsgAdd sizeMod sessionEnvironment.heap (wsmsgCreate 1000 1000) vanishingPong).1) = none

theorem endless_of_le {sizeMod : Nat} (wide : 2 ^ 32 ≤ sizeMod) : Endless sizeMod where
  inner ends := by
    refine (removes_iff wide).mp (ends.removes _ .start) ⟨by decide, by decide, 2 ^ 32 - 14, 10,
      by decide, by decide, by decide, ?_⟩
    have limit : (receiverWith vanishingPong).frameData.maxLength = 1000 := rfl
    exact bufferSetPlan_of_limited (by omega) (by omega) _
  outer := by
    have received : (wsmsgAdd sizeMod sessionEnvironment.heap (wsmsgCreate 1000 1000)
        vanishingPong).1 =
        wsmsgProcessLoop sizeMod sessionEnvironment.heap (receiverWith vanishingPong) := by
      have added : bufferAppend 0 (wsmsgCreate 1000 1000).frameBuffer vanishingPong =
          ((receiverWith vanishingPong).frameBuffer, true) := rfl
      simp only [wsmsgAdd, added]
      rfl
    have kept := @wsmsgProcessLoop_keepsPong sizeMod wide sessionEnvironment.heap
      (receiverWith vanishingPong) rfl rfl rfl rfl
    rw [← received] at kept
    generalize (wsmsgAdd sizeMod sessionEnvironment.heap (wsmsgCreate 1000 1000)
      vanishingPong).1 = wsmsg at kept
    exact Loop.iterate_eq_none
      (fun conn kept => frameRoundSized_keepsPong wide sessionEnvironment false kept)
      (show KeepsPong (connectionWith wsmsg).wsmsg from kept)

/-- The loops do not end, neither in 32 bits nor in 64. -/
theorem receive_loops_pong : Endless (2 ^ 32) ∧ Endless (2 ^ 64) :=
  ⟨endless_of_le (by decide), endless_of_le (by decide)⟩

end Jabsocket
