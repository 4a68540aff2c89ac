import Jabsocket.Chunking
import Jabsocket.WireFrame

/-!
# Reassembly according to RFC 6455

The reference reassembler takes frames one at a time.  When every chunk completes at most one frame
and the caller drains the receiver after every chunk, the receiver does what the reference does, at
every moment of the stream.
-/

namespace Jabsocket

/-- The reference: deliveries, and whether reassembly failed.  Opcodes from 8 on are control
frames, opcode 0 continues the open message. -/
def reassemble : Option Draft → List WireFrame → List Delivery × Bool
  | _, [] => ([], false)
  | opened, frame :: frames =>
      if 8 ≤ frame.opcode.val then
        if frame.fin then
          prepend [.control frame.opcode frame.payload] (reassemble opened frames)
        else ([], true)
      else if frame.opcode.val = 0 then
        match opened with
        | none => ([], true)
        | some draft =>
            if frame.fin then
              prepend [.message draft.opcode (draft.payload ++ frame.payload)]
                (reassemble none frames)
            else
              reassemble (some { draft with payload := draft.payload ++ frame.payload }) frames
      else
        match opened with
        | none =>
            if frame.fin then
              prepend [.message frame.opcode frame.payload] (reassemble none frames)
            else reassemble (some { opcode := frame.opcode, payload := frame.payload }) frames
        | some _ => ([], true)

/-- The number of frames which are complete after the given number of bytes. -/
def completed : List WireFrame → Nat → Nat
  | [], _ => 0
  | frame :: frames, count =>
      if frame.bytes.length ≤ count then completed frames (count - frame.bytes.length) + 1 else 0

/-- The opcodes which RFC 6455 defines. -/
def WireFrame.HasOpcode (frame : WireFrame) : Prop :=
  frame.opcode ∈ ([0, 1, 2, 8, 9, 10] : List (Fin 16))

/-- The scan finds the complete frames of a stream. -/
theorem pieces_of_isPrefix {frames : List WireFrame} {data : List UInt8}
    (beginning : data <+: frames.flatMap WireFrame.bytes) :
    frameScanner.pieces data =
      (frames.take (completed frames data.length)).map fun frame => .item frame.decoded := by
  induction frames generalizing data with
  | nil =>
      obtain rfl : data = [] := by simpa using beginning
      simp
  | cons frame frames ih =>
      rw [List.flatMap_cons] at beginning
      by_cases complete : frame.bytes.length ≤ data.length
      · obtain ⟨rest, rfl⟩ : frame.bytes <+: data :=
          List.prefix_of_prefix_length_le (List.prefix_append _ _) beginning complete
        have later : rest <+: frames.flatMap WireFrame.bytes :=
          (List.prefix_append_right_inj frame.bytes).mp beginning
        rw [Scanner.pieces_item (frame.scanFrame_bytes rest), ih later, completed, if_pos complete,
          List.length_append, Nat.add_sub_cancel_left, List.take_succ_cons, List.map_cons]
      · have inside : data <+: frame.bytes :=
          List.prefix_of_prefix_length_le beginning (List.prefix_append _ _) (by omega)
        have proper : data ≠ frame.bytes := by
          rintro rfl
          exact complete (Nat.le_refl _)
        rw [Scanner.pieces_more (frame.scanFrame_of_isPrefix inside proper), completed,
          if_neg complete]
        rfl

theorem WireFrame.HasOpcode.isControl_eq {frame : WireFrame} (known : frame.HasOpcode) :
    isControl frame.opcode = decide (8 ≤ frame.opcode.val) := by
  have all : ∀ opcode ∈ ([0, 1, 2, 8, 9, 10] : List (Fin 16)),
      isControl opcode = decide (8 ≤ opcode.val) := by
    decide
  exact all frame.opcode known

/-- The stage in which a message is open, or none is. -/
def stageOf : Option Draft → Stage
  | none => .idle
  | some draft => .started draft

/-- Reassembly one frame at a time is the reference. -/
theorem sequential_eq_reassemble (opened : Option Draft) {frames : List WireFrame}
    (known : ∀ frame ∈ frames, frame.HasOpcode) :
    sequential (stageOf opened) (frames.map fun frame => .item frame.decoded) =
      reassemble opened frames := by
  induction frames generalizing opened with
  | nil => rfl
  | cons frame frames ih =>
      have later : ∀ frame ∈ frames, frame.HasOpcode :=
        fun frame member => known frame (List.mem_cons_of_mem _ member)
      have control : isControl frame.decoded.opcode = decide (8 ≤ frame.opcode.val) :=
        (known frame List.mem_cons_self).isControl_eq
      have ended := ih none later
      have continued := fun draft => ih (some draft) later
      rw [List.map_cons, sequential, control]
      by_cases high : 8 ≤ frame.opcode.val
      · simp only [reassemble, high, decide_true, if_true, ih opened later]
        rfl
      by_cases continuation : frame.opcode.val = 0
      · cases opened with
        | none =>
            simp [reassemble, stageOf, Stage.accepts, continuation,
              opcodeContinuation]
        | some draft =>
            simp only [stageOf] at ended continued
            cases final : frame.fin <;>
              simp [reassemble, stageOf, Stage.accepts, Stage.extend, Stage.draftWith, Stage.flush,
                Stage.settle, continuation, opcodeContinuation, final, ended,
                continued]
      · cases opened with
        | none =>
            simp only [stageOf] at ended continued
            cases final : frame.fin <;>
              simp [reassemble, high, stageOf, Stage.accepts, Stage.extend, Stage.draftWith,
                Stage.flush, Stage.settle, continuation, opcodeContinuation,
                final, ended, continued]
        | some draft =>
            simp [reassemble, high, stageOf, Stage.accepts, continuation,
              opcodeContinuation]

theorem completed_le (frames : List WireFrame) (count : Nat) :
    completed frames count ≤ frames.length := by
  induction frames generalizing count with
  | nil => exact Nat.le_refl _
  | cons frame frames ih =>
      rw [completed, List.length_cons]
      split
      · exact Nat.succ_le_succ (ih _)
      · exact Nat.zero_le _

theorem completed_all (frames : List WireFrame) :
    completed frames (frames.flatMap WireFrame.bytes).length = frames.length := by
  induction frames with
  | nil => rfl
  | cons frame frames ih =>
      rw [List.flatMap_cons, List.length_append, completed, if_pos (Nat.le_add_right _ _),
        Nat.add_sub_cancel_left, ih, List.length_cons]

/-- Every chunk completes at most one frame. -/
def Paced (frames : List WireFrame) (chunks : List (List UInt8)) : Prop :=
  ∀ index < chunks.length,
    completed frames (chunks.take (index + 1)).flatten.length ≤
      completed frames (chunks.take index).flatten.length + 1

theorem Paced.chunk_le {frames : List WireFrame} {fed unfed : List (List UInt8)}
    {chunk : List UInt8} (paced : Paced frames (fed ++ chunk :: unfed)) :
    completed frames (fed.flatten ++ chunk).length ≤ completed frames fed.flatten.length + 1 := by
  have bound : fed.length < (fed ++ chunk :: unfed).length := by simp
  have next := paced fed.length bound
  rw [List.take_length_add_append, List.take_left] at next
  simpa using next

/-- Frames of less than 2^31 bytes do not come to a large announced length. -/
theorem allModerate_frames {frames : List WireFrame}
    (short : ∀ frame ∈ frames, frame.body.length < 2 ^ 31) :
    AllModerate (frames.flatMap WireFrame.bytes) := by
  induction frames with
  | nil => decide
  | cons frame frames ih =>
      rw [List.flatMap_cons, allModerate_iff]
      refine ⟨WireFrame.moderate_bytes (short frame List.mem_cons_self) _,
        fun value rest found => ?_⟩
      rw [frame.scanFrame_bytes] at found
      cases found
      exact ih fun other member => short other (List.mem_cons_of_mem _ member)

/-- At every moment the receiver has delivered what the reference delivers for the frames which are
complete, and has failed exactly if the reference fails on them. -/
theorem receive_eq_reassemble (heap : Heap) {frames : List WireFrame}
    (known : ∀ frame ∈ frames, frame.HasOpcode)
    (short : ∀ frame ∈ frames, frame.body.length < 2 ^ 31) {chunks : List (List UInt8)}
    (fed : chunks.flatten = frames.flatMap WireFrame.bytes) (paced : Paced frames chunks) :
    receive (2 ^ 64) heap chunks = reassemble none frames ∧
      ∀ earlier later, chunks = earlier ++ later →
        receive (2 ^ 64) heap earlier =
          reassemble none (frames.take (completed frames earlier.flatten.length)) := by
  have progress : ∀ earlier later, chunks = earlier ++ later →
      receive (2 ^ 64) heap earlier =
        reassemble none (frames.take (completed frames earlier.flatten.length)) := by
    rintro earlier later rfl
    rw [List.flatten_append] at fed
    have beginning : earlier.flatten <+: frames.flatMap WireFrame.bytes := ⟨_, fed⟩
    have moderate : AllModerate earlier.flatten := (allModerate_frames short).of_isPrefix beginning
    have counted : ∀ data, data <+: earlier.flatten →
        (frameScanner.pieces data).length = completed frames data.length := by
      intro data front
      rw [pieces_of_isPrefix (front.trans beginning), List.length_map, List.length_take,
        Nat.min_eq_left (completed_le frames _)]
    have small : ∀ group ∈ frameScanner.groups (some []) earlier, group.length ≤ 1 := by
      refine Scanner.length_groups_le frameScanner.scan_nil fun fed chunk unfed split_chunks => ?_
      rw [split_chunks, List.append_assoc, List.cons_append] at paced
      have front : fed.flatten ++ chunk <+: earlier.flatten :=
        ⟨unfed.flatten, by simp [split_chunks]⟩
      rw [List.nil_append, List.nil_append, counted _ front,
        counted _ ((List.prefix_append _ _).trans front)]
      exact paced.chunk_le
    rw [receive_of_moderate (by decide) heap moderate, receive_eq_runGroups,
      runGroups_small Stage.settled_idle small,
      Scanner.groups_flatten [] earlier frameScanner.scan_nil, List.nil_append,
      pieces_of_isPrefix beginning]
    exact sequential_eq_reassemble none fun frame member =>
      known frame (List.mem_of_mem_take member)
  refine ⟨?_, progress⟩
  rw [progress chunks [] (by simp), fed, completed_all, List.take_length]

/-- A text message in two fragments with a ping between them. -/
def fragmentedHello : List WireFrame :=
  [{ fin := false
     opcode := 1
     key := some ![0x37, 0xfa, 0x21, 0x3d]
     form := .seven
     body := [0x7f, 0x9f, 0x4d]
     fits := by decide
     small := by decide },
   { fin := true
     opcode := 9
     key := none
     form := .sixteen
     body := [0x21]
     fits := by decide
     small := by decide },
   { fin := true
     opcode := 0
     key := none
     form := .seven
     body := [0x6c, 0x6f]
     fits := by decide
     small := by decide }]

/-- The ping is delivered between the fragments, and the message whole behind it, although no chunk
ends where a frame ends. -/
theorem receive_fragmentedHello :
    receive (2 ^ 64) (fun _ _ => 0xff)
        [[0x01, 0x83, 0x37], [0xfa, 0x21, 0x3d, 0x7f, 0x9f, 0x4d, 0x89], [0x7e, 0x00, 0x01, 0x21],
          [0x80, 0x02, 0x6c], [0x6f]] =
      ([.control 9 [0x21], .message 1 [0x48, 0x65, 0x6c, 0x6c, 0x6f]], false) := by
  have reassembled := (receive_eq_reassemble (fun _ _ => 0xff)
    (show ∀ frame ∈ fragmentedHello, frame.HasOpcode by simp [fragmentedHello, WireFrame.HasOpcode])
    (show ∀ frame ∈ fragmentedHello, frame.body.length < 2 ^ 31 by simp [fragmentedHello])
    (show [[0x01, 0x83, 0x37], [0xfa, 0x21, 0x3d, 0x7f, 0x9f, 0x4d, 0x89],
        [0x7e, 0x00, 0x01, 0x21], [0x80, 0x02, 0x6c], [0x6f]].flatten =
      fragmentedHello.flatMap WireFrame.bytes by decide)
    (show ∀ index < 5, _ by decide)).1
  rw [reassembled]
  decide

theorem longBody_lt : (List.replicate (2 ^ 32 - 4) (0 : UInt8)).length < 2 ^ 32 := by
  rw [List.length_replicate]
  decide

/-- A masked pong whose body is four bytes short of 4 GiB. -/
def longPong : WireFrame where
  fin := true
  opcode := 10
  key := some ![0, 0, 0, 0]
  form := .sixtyFour
  body := List.replicate (2 ^ 32 - 4) 0
  fits := Nat.lt_trans longBody_lt (Nat.lt_of_sub_eq_succ rfl)
  small := longBody_lt

theorem longPong_bytes :
    longPong.bytes = [0x8a, 0xff, 0, 0, 0, 0, 0xff, 0xff, 0xff, 0xfc] ++
      ([0, 0, 0, 0] ++ List.replicate (2 ^ 32 - 4) 0) := by
  have length_eq : longPong.body.length = 2 ^ 32 - 4 := List.length_replicate
  have key_eq : longPong.keyBytes = [0, 0, 0, 0] := rfl
  rw [WireFrame.bytes, WireFrame.secondByte, length_eq, key_eq]
  rfl

/-- The length of the pong is negative, and its size is that of its header without the key.  When
only this header has arrived, a pong of uninitialised bytes is delivered, where nothing is
complete. -/
theorem receive_longPong :
    longPong.HasOpcode ∧
      [longPong.bytes.take 10, longPong.bytes.drop 10].flatten =
        [longPong].flatMap WireFrame.bytes ∧
      Paced [longPong] [longPong.bytes.take 10, longPong.bytes.drop 10] ∧
      receive (2 ^ 64) (fun _ _ => 0) [longPong.bytes.take 10] ≠
        reassemble none
          ([longPong].take (completed [longPong] [longPong.bytes.take 10].flatten.length)) := by
  have header : longPong.bytes.take 10 = [0x8a, 0xff, 0, 0, 0, 0, 0xff, 0xff, 0xff, 0xfc] := by
    rw [longPong_bytes]
    rfl
  have incomplete : completed [longPong] 10 = 0 := by
    rw [completed, longPong_bytes, List.length_append, List.length_append, List.length_replicate]
    rfl
  refine ⟨show (10 : Fin 16) ∈ _ by decide, ?_, fun index _ => ?_, ?_⟩
  · rw [List.flatten_cons, List.flatten_cons, List.flatten_nil, List.append_nil,
      List.take_append_drop, List.flatMap_cons, List.flatMap_nil, List.append_nil]
  · exact (completed_le _ _).trans (Nat.le_add_left 1 _)
  · rw [header]
    simp only [List.flatten_cons, List.flatten_nil, List.append_nil, List.length_cons,
      List.length_nil, Nat.zero_add, Nat.reduceAdd, incomplete]
    decide +kernel

end Jabsocket
