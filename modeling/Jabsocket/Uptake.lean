import Jabsocket.Answers
import Jabsocket.ReadCallback

/-!
# What a receiver takes from its bytes

The frames which a receiver without limits has taken are the first ones in the bytes which it was
given.  In this order, the data frames among them make up the messages which were taken and the one
being assembled, and the pings are those which were taken and the one which is parked.  A frame
which is refused is the last one.
-/

namespace Jabsocket

/-! ## Frames at the front of the input -/

namespace Scanner

variable {α ι : Type*} {scanner : Scanner α ι} {input rest : List α} {items : List ι}

/-- Items are at the front of an input, with a rest behind them, whatever arrives later. -/
def Splits (scanner : Scanner α ι) (input : List α) (items : List ι) (rest : List α) : Prop :=
  ∀ later, scanner.pieces (input ++ later) = items.map .item ++ scanner.pieces (rest ++ later)

theorem Splits.refl (scanner : Scanner α ι) (input : List α) : scanner.Splits input [] input :=
  fun _ => rfl

theorem Splits.append (splits : scanner.Splits input items rest) (more : List α) :
    scanner.Splits (input ++ more) items (rest ++ more) := by
  intro later
  rw [List.append_assoc, List.append_assoc, splits]

theorem Splits.item (splits : scanner.Splits input items rest) {value : ι} {behind : List α}
    (found : scanner.scan rest = .item value behind) :
    scanner.Splits input (items ++ [value]) behind := by
  intro later
  rw [splits, pieces_item (scanner.scan_item_append later found), List.map_append,
    List.append_assoc]
  rfl

end Scanner

/-- The frame which was found. -/
def Piece.frame? : Piece Frame → Option Frame
  | .item frame => some frame
  | .bad => none

/-- The complete frames at the front of a byte string. -/
def foundFrames (bytes : List UInt8) : List Frame :=
  (frameScanner.pieces bytes).filterMap Piece.frame?

/-- The data frames among some frames. -/
def dataFrames (frames : List Frame) : List Frame :=
  frames.filter fun frame => !isControl frame.opcode

/-- The payloads of the pings among some frames. -/
def pingPayloads (frames : List Frame) : List (List UInt8) :=
  (frames.filter fun frame => frame.opcode == opcodePing).map Frame.payload

@[simp] theorem dataFrames_append (first second : List Frame) :
    dataFrames (first ++ second) = dataFrames first ++ dataFrames second :=
  List.filter_append ..

@[simp] theorem pingPayloads_append (first second : List Frame) :
    pingPayloads (first ++ second) = pingPayloads first ++ pingPayloads second := by
  simp [pingPayloads]

theorem dataFrames_control {frame : Frame} (control : isControl frame.opcode = true) :
    dataFrames [frame] = [] := by
  simp [dataFrames, control]

theorem dataFrames_data {frame : Frame} (data : isControl frame.opcode = false) :
    dataFrames [frame] = [frame] := by
  simp [dataFrames, data]

theorem pingPayloads_ping {frame : Frame} (ping : frame.opcode = opcodePing) :
    pingPayloads [frame] = [frame.payload] := by
  simp [pingPayloads, ping]

theorem pingPayloads_other {frame : Frame} (other : frame.opcode ≠ opcodePing) :
    pingPayloads [frame] = [] := by
  simp [pingPayloads, other]

theorem pingPayloads_data {frame : Frame} (data : isControl frame.opcode = false) :
    pingPayloads [frame] = [] := by
  refine pingPayloads_other fun ping => ?_
  rw [ping] at data
  cases data

theorem Scanner.Splits.isPrefix {bytes rest : List UInt8} {frames : List Frame}
    (splits : frameScanner.Splits bytes frames rest) (later : List UInt8) :
    frames <+: foundFrames (bytes ++ later) := by
  have found : (frames.map Piece.item).filterMap Piece.frame? = frames := by
    rw [List.filterMap_map]
    exact List.filterMap_some
  rw [foundFrames, splits, List.filterMap_append, found]
  exact List.prefix_append _ _

/-! ## Messages -/

/-- Frames of one message: the first one has the opcode of the message, the others continue it. -/
structure Begins (opcode : Nat) (frames : List Frame) : Prop where
  head_opcode : frames.head?.map Frame.opcode = some opcode
  opcode_ne : opcode ≠ opcodeContinuation
  tail_opcode : ∀ frame ∈ frames.tail, frame.opcode = opcodeContinuation

/-- All frames of a message, among them a final one. -/
structure IsMessage (opcode : Nat) (frames : List Frame) : Prop extends Begins opcode frames where
  final : ∃ frame ∈ frames, frame.fin = true

/-- A stage was made of frames. -/
def Stage.MadeOf (frames : List Frame) : Stage → Prop
  | .idle => frames = []
  | .started draft => Begins draft.opcode frames ∧ draft.payload = frames.flatMap Frame.payload
  | .complete draft => IsMessage draft.opcode frames ∧ draft.payload = frames.flatMap Frame.payload

theorem Begins.concat {opcode : Nat} {frames : List Frame} (begins : Begins opcode frames)
    {frame : Frame} (continued : frame.opcode = opcodeContinuation) :
    Begins opcode (frames ++ [frame]) := by
  obtain ⟨head_opcode, opcode_ne, tail_opcode⟩ := begins
  cases frames with
  | nil => simp at head_opcode
  | cons first frames =>
      refine ⟨by simpa using head_opcode, opcode_ne, ?_⟩
      intro later member
      rcases List.mem_append.mp member with earlier | last
      · exact tail_opcode later earlier
      · rw [List.mem_singleton.mp last]
        exact continued

/-- An accepted data frame extends the message. -/
theorem Stage.MadeOf.extend {stage : Stage} {frames : List Frame} (made : stage.MadeOf frames)
    {frame : Frame} (accepted : stage.accepts frame = true) :
    (stage.extend frame).MadeOf (frames ++ [frame]) := by
  cases stage with
  | idle =>
      obtain rfl : frames = [] := made
      have begins : Begins frame.opcode [frame] :=
        ⟨rfl, by simpa [Stage.accepts] using accepted, by simp⟩
      simp only [Stage.extend, Stage.draftWith, List.nil_append]
      split_ifs with final
      · exact ⟨⟨begins, frame, List.mem_singleton_self frame, final⟩, by simp⟩
      · exact ⟨begins, by simp⟩
  | started draft =>
      obtain ⟨begins, payload_eq⟩ := made
      have longer := begins.concat (by simpa [Stage.accepts] using accepted)
      simp only [Stage.extend, Stage.draftWith]
      split_ifs with final
      · exact ⟨⟨longer, frame, by simp, final⟩, by simp [payload_eq]⟩
      · exact ⟨longer, by simp [payload_eq]⟩
  | complete draft =>
      obtain ⟨⟨begins, final⟩, payload_eq⟩ := made
      have longer := begins.concat (by simpa [Stage.accepts] using accepted)
      obtain ⟨last, member, fin⟩ := final
      exact ⟨⟨longer, last, List.mem_append_left _ member, fin⟩,
        by simp [Stage.draftWith, payload_eq]⟩

/-! ## The receiver -/

/-- Messages and pings were taken from a receiver which was given bytes. -/
structure Receiver.Heeds (given : List UInt8) (messages : List (List Frame))
    (pings : List (List UInt8)) (receiver : Receiver (List UInt8)) : Prop where
  grouped : ∀ frames ∈ messages, ∃ opcode, IsMessage opcode frames
  accounts : ∃ taken opened refused, frameScanner.Splits given taken receiver.source ∧
    dataFrames taken = messages.flatten ++ opened ++ dataFrames refused ∧
    pingPayloads taken = pings ++ pingPayloads receiver.parked.toList ++ pingPayloads refused ∧
    receiver.stage.MadeOf opened ∧ (receiver.failed = false → refused = [])

section

variable {receiver : Receiver (List UInt8)} {given : List UInt8} {messages : List (List Frame)}
  {pings : List (List UInt8)}

theorem Receiver.heeds_create : Receiver.Heeds [] [] [] (Receiver.create []) where
  grouped := by simp
  accounts := ⟨[], [], [], .refl _ _, rfl, rfl, rfl, fun _ => rfl⟩

/-- The messages which were taken are the first ones. -/
theorem Receiver.Heeds.messages_isPrefix (heeds : receiver.Heeds given messages pings)
    (later : List UInt8) : messages.flatten <+: dataFrames (foundFrames (given ++ later)) := by
  obtain ⟨taken, opened, refused, splits, data_eq, -⟩ := heeds.accounts
  refine List.IsPrefix.trans ?_ ((splits.isPrefix later).filter _)
  rw [← dataFrames, data_eq, List.append_assoc]
  exact List.prefix_append _ _

/-- The pings which were taken are the first ones. -/
theorem Receiver.Heeds.pings_isPrefix (heeds : receiver.Heeds given messages pings)
    (later : List UInt8) : pings <+: pingPayloads (foundFrames (given ++ later)) := by
  obtain ⟨taken, opened, refused, splits, -, ping_eq, -⟩ := heeds.accounts
  refine List.IsPrefix.trans ?_ (((splits.isPrefix later).filter _).map _)
  rw [← pingPayloads, ping_eq, List.append_assoc]
  exact List.prefix_append _ _

/-- One frame is taken out of the bytes. -/
theorem Receiver.Heeds.handle (heeds : receiver.Heeds given messages pings)
    (healthy : receiver.failed = false) (unparked : receiver.parked = none) {frame : Frame}
    {rest : List UInt8} (found : scanFrame receiver.source = .item frame rest) :
    match Receiver.handle (clipping 0 0) { receiver with source := rest } frame with
    | .again next =>
        next.Heeds given messages pings ∧ next.failed = false ∧ next.parked = none
    | .leave final => final.Heeds given messages pings := by
  obtain ⟨grouped, taken, opened, refused, splits, data_eq, ping_eq, made, sound⟩ := heeds
  obtain rfl : refused = [] := sound healthy
  have longer := splits.item found
  have control_eq : (clipping 0 0).control frame.payload = some frame.payload := rfl
  have data_kept : (clipping 0 0).data receiver.stage.draft.payload frame.payload =
      some frame.payload := admitted_unlimited _ _
  have data_more : dataFrames (taken ++ [frame]) =
      messages.flatten ++ opened ++ dataFrames [frame] := by
    rw [dataFrames_append, data_eq]
    simp [dataFrames]
  have ping_more : pingPayloads (taken ++ [frame]) = pings ++ pingPayloads [frame] := by
    rw [pingPayloads_append, ping_eq, unparked]
    simp [pingPayloads]
  unfold Receiver.handle
  simp only [control_eq, data_kept]
  cases control : isControl frame.opcode with
  | true =>
      rw [if_pos rfl]
      split_ifs
      · refine ⟨grouped, _, opened, [], longer, ?_, ?_, made, fun _ => rfl⟩
        · rw [data_more, dataFrames_control control]
          rfl
        · rw [ping_more]
          exact (List.append_nil _).symm
      · refine ⟨grouped, _, opened, [frame], longer, data_more, ?_, made, by simp⟩
        rw [ping_more, unparked]
        exact congrArg (· ++ pingPayloads [frame]) (List.append_nil pings).symm
  | false =>
      rw [if_neg (by simp)]
      cases accepted : receiver.stage.accepts frame with
      | true =>
          rw [if_pos rfl]
          refine ⟨⟨grouped, _, opened ++ [frame], [], longer, ?_, ?_, made.extend accepted,
            fun _ => rfl⟩, healthy, unparked⟩
          · rw [data_more, dataFrames_data control, List.append_assoc]
            exact (List.append_nil _).symm
          · rw [ping_more, pingPayloads_data control, unparked]
            exact (List.append_nil _).symm
      | false =>
          rw [if_neg (by simp)]
          refine ⟨grouped, _, opened, [frame], longer, data_more, ?_, made, by simp⟩
          rw [ping_more, unparked]
          exact congrArg (· ++ pingPayloads [frame]) (List.append_nil pings).symm

theorem Receiver.Heeds.process (heeds : receiver.Heeds given messages pings) :
    (receiver.process (clipping 0 0)).Heeds given messages pings := by
  unfold Receiver.process
  split_ifs with blocked
  · exact heeds
  have free := blocked
  simp only [Receiver.blocked, Bool.or_eq_true, not_or] at free
  refine Loop.run_induction
    (fun state => state.Heeds given messages pings ∧ state.failed = false ∧ state.parked = none)
    (fun state => state.Heeds given messages pings) (Receiver.round_decreasing _) ?_ ?_
    ⟨heeds, by simpa using free.2, parked_eq_none_of_not_blocked blocked⟩
  · rintro state next ⟨heeds, healthy, unparked⟩ again
    rw [Receiver.round_clipping] at again
    split at again
    · cases again
    · cases again
    · rename_i frame rest found
      have outcome := heeds.handle healthy unparked found
      rwa [again] at outcome
  · rintro state final ⟨heeds, healthy, unparked⟩ leave
    rw [Receiver.round_clipping] at leave
    split at leave
    · injection leave with final_eq
      rwa [← final_eq]
    · injection leave with final_eq
      rw [← final_eq]
      obtain ⟨grouped, taken, opened, refused, splits, data_eq, ping_eq, made, sound⟩ := heeds
      exact ⟨grouped, taken, opened, refused, splits, data_eq, ping_eq, made,
        fun _ => sound healthy⟩
    · rename_i frame rest found
      have outcome := heeds.handle healthy unparked found
      rwa [leave] at outcome

theorem Receiver.Heeds.add (heeds : receiver.Heeds given messages pings) (chunk : List UInt8) :
    (receiver.add (clipping 0 0) chunk).Heeds (given ++ chunk) messages pings := by
  have stored : (clipping 0 0).chunk receiver.source chunk = some (receiver.source ++ chunk) :=
    congrArg (Option.map (receiver.source ++ ·)) (admitted_unlimited receiver.source chunk)
  rw [Receiver.add, stored]
  refine Receiver.Heeds.process ?_
  obtain ⟨grouped, taken, opened, refused, splits, kept⟩ := heeds
  exact ⟨grouped, taken, opened, refused, splits.append chunk, kept⟩

/-- The control frame which is taken is the next ping, if it is one. -/
theorem Receiver.Heeds.takeFrame (heeds : receiver.Heeds given messages pings) {frame : Frame}
    (parked : receiver.parked = some frame) :
    (receiver.takeFrame (clipping 0 0)).1.Heeds given messages
      (pings ++ pingPayloads [frame]) := by
  obtain ⟨grouped, taken, opened, refused, splits, data_eq, ping_eq, made, sound⟩ := heeds
  unfold Receiver.takeFrame
  rw [parked] at ping_eq ⊢
  refine Receiver.Heeds.process ⟨grouped, taken, opened, refused, splits, data_eq, ?_, made, sound⟩
  rw [ping_eq]
  exact congrArg (· ++ pingPayloads refused) (List.append_nil _).symm

/-- A message which is taken consists of the next data frames. -/
theorem Receiver.Heeds.takeMessage (heeds : receiver.Heeds given messages pings) {draft : Draft}
    (complete : receiver.stage = .complete draft) :
    ∃ frames, IsMessage draft.opcode frames ∧ draft.payload = frames.flatMap Frame.payload ∧
      (receiver.takeMessage (clipping 0 0)).1.Heeds given (messages ++ [frames]) pings := by
  obtain ⟨grouped, taken, opened, refused, splits, data_eq, ping_eq, made, sound⟩ := heeds
  rw [complete] at made
  refine ⟨opened, made.1, made.2, ?_⟩
  unfold Receiver.takeMessage
  rw [complete]
  refine Receiver.Heeds.process ⟨?_, taken, [], refused, splits, ?_, ping_eq, rfl, sound⟩
  · intro frames member
    rcases List.mem_append.mp member with earlier | last
    · exact grouped frames earlier
    · rw [List.mem_singleton.mp last]
      exact ⟨draft.opcode, made.1⟩
  · simpa using data_eq

end

end Jabsocket
