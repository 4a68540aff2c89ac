import Jabsocket.Execution
import Jabsocket.TagHandlers

/-!
# The frames of a stream

However a stream is cut into calls of `framer_add`, and whenever frames are taken out, the frames
are the start tag of the stream, its children and its end tag.
-/

namespace Jabsocket

/-! ## Feeding -/

/-- A framer which has seen the same tags as another one, and from whose queue the front was
taken. -/
structure Framer.Mirrors (whole part : Framer) (front : List QueuedFrame) : Prop where
  level_eq : part.level = whole.level
  index_eq : part.index = whole.index
  frames_eq : whole.frames = front ++ part.frames

/-- The handlers leave the parser and the buffer alone. -/
structure Framer.Keeps (before after : Framer) : Prop where
  fed_eq : after.fed = before.fed
  error_eq : after.error = before.error
  buffer_eq : after.buffer = before.buffer
  bufferIndex_eq : after.bufferIndex = before.bufferIndex

theorem framerHandle_keeps (framer : Framer) (callback : Callback) :
    framer.Keeps (framerHandle framer callback) := by
  cases callback with
  | start el attr index count =>
      simp only [framerHandle, framerStart]
      split
      · split_ifs <;> exact ⟨rfl, rfl, rfl, rfl⟩
      · exact ⟨rfl, rfl, rfl, rfl⟩
  | stop el index count =>
      simp only [framerHandle, framerEnd]
      split_ifs <;> exact ⟨rfl, rfl, rfl, rfl⟩

theorem Framer.Mirrors.handle {whole part : Framer} {front : List QueuedFrame}
    (mirrors : whole.Mirrors part front) (callback : Callback) :
    (framerHandle whole callback).Mirrors (framerHandle part callback) front := by
  obtain ⟨level_eq, index_eq, frames_eq⟩ := mirrors
  cases callback with
  | start el attr index count =>
      simp only [framerHandle, framerStart, framerAddFrame, level_eq]
      split
      · split_ifs
        · exact ⟨rfl, index_eq, by simp [frames_eq]⟩
        · exact ⟨by simp, rfl, frames_eq⟩
        · exact ⟨by simp [level_eq], index_eq, frames_eq⟩
      · exact ⟨by simp [level_eq], index_eq, frames_eq⟩
  | stop el index count =>
      simp only [framerHandle, framerEnd, framerAddFrame, level_eq, index_eq]
      split_ifs
      · exact ⟨rfl, rfl, by simp [frames_eq]⟩
      · exact ⟨rfl, rfl, by simp [frames_eq]⟩
      · exact ⟨rfl, rfl, frames_eq⟩

theorem Framer.Mirrors.foldl {whole part : Framer} {front : List QueuedFrame}
    (mirrors : whole.Mirrors part front) (callbacks : List Callback) :
    (callbacks.foldl framerHandle whole).Mirrors (callbacks.foldl framerHandle part) front ∧
      part.Keeps (callbacks.foldl framerHandle part) := by
  induction callbacks generalizing whole part with
  | nil => exact ⟨mirrors, rfl, rfl, rfl, rfl⟩
  | cons callback callbacks ih =>
      obtain ⟨mirrors', kept⟩ := ih (mirrors.handle callback)
      have first := framerHandle_keeps part callback
      exact ⟨mirrors', kept.fed_eq.trans first.fed_eq, kept.error_eq.trans first.error_eq,
        kept.buffer_eq.trans first.buffer_eq, kept.bufferIndex_eq.trans first.bufferIndex_eq⟩

/-- Handler calls never take a frame out of the queue. -/
theorem frames_eq_nil_of_framerAfter {framer : Framer} {marks : List Mark} {count : Nat}
    (empty : (framerAfter framer marks count).frames = []) : framer.frames = [] := by
  have mirrors : framer.Mirrors { framer with frames := [] } framer.frames :=
    ⟨rfl, rfl, (List.append_nil _).symm⟩
  rw [framerAfter, (mirrors.foldl _).1.frames_eq] at empty
  exact (List.append_eq_nil_iff.mp empty).1

/-- The start tag of a stream is queued once it has arrived. -/
theorem framerAfter_frames_ne_nil {document : Document}
    (root_name : bareName document.root.name = some (text "stream")) {count : Nat}
    (opened : document.inner ≤ count) :
    (framerAfter framerCreate document.marks count).frames ≠ [] := by
  intro empty
  rw [Document.marks, framerAfter_cons _ _ opened] at empty
  have start_empty := frames_eq_nil_of_framerAfter empty
  simp [framerHandle, framerStart, root_name, framerAddFrame] at start_empty

/-- A framer which was fed the beginning of a stream and from which some items were taken. -/
structure Draws (document : Document) (framer : Framer) (taken later : List Item)
    (position : Nat) : Prop where
  fed_isPrefix : framer.fed <+: document.bytes
  error_eq : framer.error = false
  items_eq : document.items = taken ++ later
  completed : ∀ item ∈ taken, item.stop ≤ framer.fed.length
  mirrors : (framerAfter framerCreate document.marks framer.fed.length).Mirrors framer
    (taken.map Item.queued)
  unlimited : framer.buffer.maxLength = 0
  buffer_eq : framer.buffer.data = framer.fed.drop position
  bufferIndex_eq : framer.bufferIndex = position
  position_le : position ≤ framer.fed.length
  later_behind : ∀ item ∈ later, position ≤ item.index

section

variable {expat : Expat} {document : Document} {framer : Framer} {taken later : List Item}
variable {position : Nat}

/-- The framer follows the handler calls of its parser. -/
theorem Expat.Reads.framerAfter_eq (reads : expat.Reads document) {fed : List UInt8}
    (beginning : fed <+: document.bytes) :
    framerAfter framerCreate document.marks fed.length =
      (expat.report fed).foldl framerHandle framerCreate := by
  rw [framerAfter, (reads fed beginning).2]

theorem draws_framerCreate (reads : expat.Reads document) :
    Draws document framerCreate [] document.items 0 where
  fed_isPrefix := List.nil_prefix
  error_eq := rfl
  items_eq := rfl
  completed := by simp
  mirrors := by
    have unfed := reads.framerAfter_eq (List.nil_prefix (l := document.bytes))
    rw [expat.report_nil] at unfed
    rw [show framerCreate.fed = [] from rfl, unfed]
    exact ⟨rfl, rfl, rfl⟩
  unlimited := rfl
  buffer_eq := rfl
  bufferIndex_eq := rfl
  position_le := Nat.le_refl 0
  later_behind := by simp

/-- All items taken are complete. -/
theorem Draws.filter_items (draws : Draws document framer taken later position) :
    (document.items.filter fun item => item.stop ≤ framer.fed.length) =
      taken ++ later.filter fun item => item.stop ≤ framer.fed.length := by
  rw [draws.items_eq, List.filter_append,
    List.filter_eq_self.mpr fun item member => by simpa using draws.completed item member]

/-- What is queued is what was completed and not taken. -/
theorem Draws.frames_eq (draws : Draws document framer taken later position)
    (stream : document.IsStream) (small : framer.fed.length < 2 ^ 31) :
    framer.frames =
      (later.filter fun item => item.stop ≤ framer.fed.length).map Item.queued := by
  have queue_eq := draws.mirrors.frames_eq
  rw [stream.framerAfter_marks small, draws.filter_items, List.map_append] at queue_eq
  exact (List.append_cancel_left queue_eq).symm

/-- What a successful `framer_add` does apart from the handler calls. -/
structure Framer.Grows (framer next : Framer) (chunk : List UInt8) : Prop where
  fed_eq : next.fed = framer.fed ++ chunk
  error_eq : next.error = framer.error
  maxLength_eq : next.buffer.maxLength = framer.buffer.maxLength
  buffer_eq : next.buffer.data = framer.buffer.data ++ chunk
  bufferIndex_eq : next.bufferIndex = framer.bufferIndex

/-- More of a document is fed. -/
theorem Framer.Mirrors.add {front : List QueuedFrame}
    (mirrors : (framerAfter framerCreate document.marks framer.fed.length).Mirrors framer front)
    (reads : expat.Reads document) (unlimited : framer.buffer.maxLength = 0) {chunk : List UInt8}
    (beginning : framer.fed ++ chunk <+: document.bytes) :
    (framerAdd expat framer chunk).2 = true ∧
      framer.Grows (framerAdd expat framer chunk).1 chunk ∧
      (framerAfter framerCreate document.marks (framer.fed ++ chunk).length).Mirrors
        (framerAdd expat framer chunk).1 front := by
  have accepted := (reads _ beginning).1
  obtain ⟨mirrors, kept⟩ := mirrors.foldl (xmlParse expat framer.fed chunk)
  rw [reads.framerAfter_eq ((List.prefix_append _ _).trans beginning), ← List.foldl_append,
    report_append_xmlParse, ← reads.framerAfter_eq beginning] at mirrors
  have handled_unlimited :
      ((xmlParse expat framer.fed chunk).foldl framerHandle framer).buffer.maxLength = 0 := by
    rw [kept.buffer_eq, unlimited]
  simp only [framerAdd, accepted, if_true, true_and]
  refine ⟨?_, mirrors.level_eq, mirrors.index_eq, mirrors.frames_eq⟩
  exact
    { fed_eq := rfl
      error_eq := kept.error_eq
      maxLength_eq := by simp [kept.buffer_eq]
      buffer_eq := by rw [bufferAppend_data_unlimited chunk handled_unlimited, kept.buffer_eq]
      bufferIndex_eq := kept.bufferIndex_eq }

/-- More of the stream is fed. -/
theorem Draws.add (draws : Draws document framer taken later position)
    (reads : expat.Reads document) {chunk : List UInt8}
    (beginning : framer.fed ++ chunk <+: document.bytes) :
    (framerAdd expat framer chunk).2 = true ∧
      (framerAdd expat framer chunk).1.fed = framer.fed ++ chunk ∧
      Draws document (framerAdd expat framer chunk).1 taken later position := by
  obtain ⟨accepted, grows, mirrors⟩ := draws.mirrors.add reads draws.unlimited beginning
  refine ⟨accepted, grows.fed_eq, ?_⟩
  exact
    { fed_isPrefix := grows.fed_eq ▸ beginning
      error_eq := grows.error_eq.trans draws.error_eq
      items_eq := draws.items_eq
      completed := fun item member => by
        have bound := draws.completed item member
        rw [grows.fed_eq, List.length_append]
        omega
      mirrors := grows.fed_eq ▸ mirrors
      unlimited := grows.maxLength_eq.trans draws.unlimited
      buffer_eq := by
        rw [grows.buffer_eq, grows.fed_eq, draws.buffer_eq,
          List.drop_append_of_le_length draws.position_le]
      bufferIndex_eq := grows.bufferIndex_eq.trans draws.bufferIndex_eq
      position_le := by
        have bound := draws.position_le
        rw [grows.fed_eq, List.length_append]
        omega
      later_behind := draws.later_behind }

/-! ## Taking -/

/-- The first frame of the queue is the first item which was not taken. -/
theorem Draws.head_eq (draws : Draws document framer taken later position)
    (stream : document.IsStream) (small : framer.fed.length < 2 ^ 31) {head : QueuedFrame}
    {frames : List QueuedFrame} (frames_eq : framer.frames = head :: frames) :
    ∃ item later', later = item :: later' ∧ head = item.queued ∧
      item.stop ≤ framer.fed.length ∧ ∀ other ∈ later', item.stop ≤ other.index := by
  have queue_eq := draws.frames_eq stream small
  have ordered := document.items_ordered
  rw [draws.items_eq] at ordered
  have later_ordered := (List.pairwise_append.mp ordered).2.1
  cases later with
  | nil => simp [frames_eq] at queue_eq
  | cons item later' =>
      have behind := (List.pairwise_cons.mp later_ordered).1
      by_cases complete : item.stop ≤ framer.fed.length
      · rw [frames_eq, List.filter_cons_of_pos (by simpa using complete), List.map_cons] at queue_eq
        exact ⟨item, later', rfl, (List.cons.inj queue_eq).1, complete, behind⟩
      · have none_left : (later'.filter fun item => item.stop ≤ framer.fed.length) = [] := by
          refine List.filter_eq_nil_iff.mpr fun other member => ?_
          have bound := behind other member
          have grows : other.index ≤ other.stop := Nat.le_add_right _ _
          simp only [decide_eq_true_eq]
          omega
        rw [frames_eq, List.filter_cons_of_neg (by simpa using complete), none_left] at queue_eq
        cases queue_eq

/-- The bytes before a position are dropped. -/
theorem framerSkipTo_eq {framer : Framer} {held : List UInt8} {position index : Nat}
    (unlimited : framer.buffer.maxLength = 0) (buffer_eq : framer.buffer.data = held.drop position)
    (bufferIndex_eq : framer.bufferIndex = position) (behind : position ≤ index)
    (small : index < 2 ^ 31) :
    ∃ buffer, framerSkipTo framer index = { framer with buffer, bufferIndex := index } ∧
      buffer.maxLength = 0 ∧ buffer.data = held.drop index := by
  unfold framerSkipTo
  rw [bufferIndex_eq]
  split_ifs with ahead
  · have delta_eq : (index : Int) - position = (index - position : Nat) := by omega
    have sum_eq : (position : Int) + (index - position : Nat) = index := by omega
    rw [delta_eq, toInt32_natCast (by omega)]
    dsimp only
    rw [toSize_natCast (by omega), sum_eq, toInt32_natCast small]
    refine ⟨_, rfl, by simpa using unlimited, ?_⟩
    rw [bufferRemoveData_data, buffer_eq, List.drop_drop, Nat.add_sub_cancel' behind]
  · obtain rfl : position = index := by omega
    exact ⟨framer.buffer, by rw [← bufferIndex_eq], unlimited, buffer_eq⟩

/-- The bytes before a frame are dropped, and the bytes of the frame. -/
theorem framerDrop_skipTo_eq {framer : Framer} {held : List UInt8} {position index : Nat}
    (unlimited : framer.buffer.maxLength = 0) (buffer_eq : framer.buffer.data = held.drop position)
    (bufferIndex_eq : framer.bufferIndex = position) (behind : position ≤ index)
    (small : index < 2 ^ 31) (size : Nat) :
    ∃ buffer, framerDrop (framerSkipTo framer index) size =
        { framer with
          buffer
          frames := framer.frames.tail
          bufferIndex := toInt32 (index + size : Nat) } ∧
      buffer.maxLength = 0 ∧ buffer.data = held.drop (index + size) := by
  obtain ⟨buffer, skipped, skipped_unlimited, data_eq⟩ :=
    framerSkipTo_eq unlimited buffer_eq bufferIndex_eq behind small
  refine ⟨bufferRemoveData buffer size, ?_, by simpa using skipped_unlimited, ?_⟩
  · rw [skipped, framerDrop, Int.natCast_add]
  · rw [bufferRemoveData_data, data_eq, List.drop_drop]

/-- The bytes before the first frame are dropped. -/
theorem Draws.skipTo (draws : Draws document framer taken later position) {item : Item}
    (behind : position ≤ item.index) (complete : item.stop ≤ framer.fed.length)
    (small : framer.fed.length < 2 ^ 31) :
    ∃ buffer, framerSkipTo framer item.index =
        { framer with buffer, bufferIndex := item.index } ∧
      buffer.maxLength = 0 ∧ buffer.data = framer.fed.drop item.index := by
  have grows : item.index ≤ item.stop := Nat.le_add_right _ _
  exact framerSkipTo_eq draws.unlimited draws.buffer_eq draws.bufferIndex_eq behind (by omega)

theorem Document.take_eq_of_item {fed : List UInt8} (beginning : fed <+: document.bytes)
    {item : Item} (member : item ∈ document.items) (complete : item.stop ≤ fed.length) :
    (fed.drop item.index).take item.bytes.length = item.bytes := by
  obtain ⟨unfed, bytes_eq⟩ := beginning
  have grows : item.index ≤ item.stop := Nat.le_add_right _ _
  have part := document.items_bytes member
  rw [← bytes_eq, List.drop_append_of_le_length (by omega)] at part
  have inside : item.bytes.length ≤ (fed.drop item.index).length := by
    rw [List.length_drop]
    simp only [Item.stop] at complete
    omega
  rw [← List.take_append_of_le_length inside]
  exact (List.prefix_iff_eq_take.mp part).symm

/-- The first frame is taken: its bytes are the bytes of the first item which was not taken. -/
theorem Draws.drop (draws : Draws document framer taken later position) (heap : Heap)
    (stream : document.IsStream) (small : framer.fed.length < 2 ^ 31) {head : QueuedFrame}
    {frames : List QueuedFrame} (frames_eq : framer.frames = head :: frames) :
    ∃ item later', later = item :: later' ∧ toSize head.size = item.bytes.length ∧
      readBytes heap (framerSkipTo framer head.index).buffer.data 0 item.bytes.length =
        item.bytes ∧
      (framerDrop (framerSkipTo framer head.index) item.bytes.length).fed = framer.fed ∧
      Draws document (framerDrop (framerSkipTo framer head.index) item.bytes.length)
        (taken ++ [item]) later' item.stop := by
  obtain ⟨item, later', rfl, rfl, complete, behind⟩ := draws.head_eq stream small frames_eq
  have member : item ∈ document.items := by simp [draws.items_eq]
  obtain ⟨buffer, skipped, unlimited, data_eq⟩ :=
    draws.skipTo (draws.later_behind item List.mem_cons_self) complete small
  have stop_eq : item.stop = item.index + item.bytes.length := rfl
  have bytes_eq := Document.take_eq_of_item draws.fed_isPrefix member complete
  have queued_index : item.queued.index = item.index := rfl
  obtain ⟨rest, dropped, rest_unlimited, rest_eq⟩ := framerDrop_skipTo_eq draws.unlimited
    draws.buffer_eq draws.bufferIndex_eq (draws.later_behind item List.mem_cons_self)
    (show item.index < 2 ^ 31 by omega) item.bytes.length
  refine ⟨item, later', rfl, toSize_natCast (by omega), ?_, ?_, ?_⟩
  · rw [queued_index, skipped, data_eq, readBytes_of_le heap (by rw [List.length_drop]; omega),
      List.drop_zero, bytes_eq]
  · rw [queued_index, dropped]
  · rw [queued_index, dropped]
    exact
      { fed_isPrefix := draws.fed_isPrefix
        error_eq := draws.error_eq
        items_eq := by simp [draws.items_eq]
        completed := fun other membership => by
          rcases List.mem_append.mp membership with before | last
          · exact draws.completed other before
          · rw [List.mem_singleton.mp last]
            exact complete
        mirrors :=
          { level_eq := draws.mirrors.level_eq
            index_eq := draws.mirrors.index_eq
            frames_eq := by
              have queue_eq := draws.mirrors.frames_eq
              rw [frames_eq] at queue_eq
              simpa [frames_eq] using queue_eq }
        unlimited := rest_unlimited
        buffer_eq := rest_eq
        bufferIndex_eq := by
          dsimp only
          rw [toInt32_natCast (by omega), stop_eq]
        position_le := complete
        later_behind := behind }

end

/-! ## Runs -/

/-- A call of the framer's interface. -/
inductive FramerCall where
  /-- `framer_add`. -/
  | add (chunk : List UInt8)
  /-- `framer_get_frame`. -/
  | getFrame
  /-- `framer_get_frame2`. -/
  | getFrame2 (data : Data)
  deriving DecidableEq, Repr

/-- A framer and the frames which were taken from it. -/
structure Drawn where
  framer : Framer
  returned : List (List UInt8)

/-- One call.  Frames are taken only when there is one, and only into a buffer which can hold it. -/
def framerStep (expat : Expat) (heap : Heap) (state : Drawn) : FramerCall → Option Drawn
  | .add chunk => some { state with framer := (framerAdd expat state.framer chunk).1 }
  | .getFrame =>
      match state.framer.frames with
      | [] => none
      | head :: _ =>
          let out := framerGetFrame heap state.framer head
          some { framer := out.1, returned := state.returned ++ [out.2] }
  | .getFrame2 data =>
      match state.framer.frames with
      | [] => none
      | head :: _ =>
          if toSize head.size ≤ data.capacity then
            let out := framerGetFrame2 heap state.framer head data
            some { framer := out.1, returned := state.returned ++ [out.2.1.buffer] }
          else none

/-- The bytes which some calls feed. -/
def fedBy (calls : List FramerCall) : List UInt8 :=
  calls.flatMap fun call =>
    match call with
    | .add chunk => chunk
    | .getFrame | .getFrame2 _ => []

/-- A part of what is sent was fed, and some frames were taken. -/
structure Drawn.Follows (document : Document) (sent unfed : List UInt8) (state : Drawn) : Prop where
  fed_eq : state.framer.fed ++ unfed = sent
  draws : ∃ taken later position, state.returned = taken.map Item.bytes ∧
    Draws document state.framer taken later position

section

variable {expat : Expat} {heap : Heap} {document : Document} {sent : List UInt8}

theorem Drawn.Follows.fed_small {unfed : List UInt8} {state : Drawn}
    (follows : state.Follows document sent unfed) (small : sent.length < 2 ^ 31) :
    state.framer.fed.length < 2 ^ 31 := by
  rw [← follows.fed_eq, List.length_append] at small
  omega

theorem Drawn.Follows.step {state next : Drawn} {call : FramerCall} {calls : List FramerCall}
    (follows : state.Follows document sent (fedBy (call :: calls))) (reads : expat.Reads document)
    (stream : document.IsStream) (beginning : sent <+: document.bytes)
    (small : sent.length < 2 ^ 31) (stepped : framerStep expat heap state call = some next) :
    next.Follows document sent (fedBy calls) := by
  have fed_small := follows.fed_small small
  obtain ⟨fed_eq, taken, later, position, returned_eq, draws⟩ := follows
  cases call with
  | add chunk =>
      injection stepped with next_eq
      rw [← next_eq]
      have fed_eq : state.framer.fed ++ chunk ++ fedBy calls = sent := by
        rw [List.append_assoc]
        exact fed_eq
      rw [← fed_eq] at beginning
      obtain ⟨-, added, draws'⟩ := draws.add reads ((List.prefix_append _ _).trans beginning)
      exact ⟨by rwa [added], taken, later, position, returned_eq, draws'⟩
  | getFrame =>
      simp only [framerStep] at stepped
      split at stepped
      · cases stepped
      · rename_i head frames frames_eq
        injection stepped with next_eq
        obtain ⟨item, later', rfl, size_eq, bytes_eq, dropped, draws'⟩ :=
          draws.drop heap stream fed_small frames_eq
        rw [← next_eq, framerGetFrame, size_eq]
        refine ⟨by rwa [dropped], taken ++ [item], later', item.stop, ?_, draws'⟩
        simp [bytes_eq, returned_eq]
  | getFrame2 data =>
      simp only [framerStep] at stepped
      split at stepped
      · cases stepped
      · rename_i head frames frames_eq
        split_ifs at stepped with fits
        injection stepped with next_eq
        obtain ⟨item, later', rfl, size_eq, bytes_eq, dropped, draws'⟩ :=
          draws.drop heap stream fed_small frames_eq
        rw [size_eq] at fits
        rw [← next_eq, framerGetFrame2, size_eq]
        refine ⟨by rwa [dropped], taken ++ [item], later', item.stop, ?_, draws'⟩
        simp [bufferGetData2, dataSetData, bytes_eq, returned_eq, List.take_of_length_le fits]

theorem Drawn.Follows.run {state final : Drawn} {calls : List FramerCall}
    (follows : state.Follows document sent (fedBy calls)) (reads : expat.Reads document)
    (stream : document.IsStream) (beginning : sent <+: document.bytes)
    (small : sent.length < 2 ^ 31)
    (execution : Execution.run (framerStep expat heap) state calls = some final) :
    final.Follows document sent [] := by
  induction calls generalizing state with
  | nil =>
      obtain rfl := Execution.run_nil.mp execution
      exact follows
  | cons call calls ih =>
      obtain ⟨next, stepped, rest⟩ := Execution.run_cons.mp execution
      exact ih (follows.step reads stream beginning small stepped) rest

/-- However a stream is fed and whenever frames are taken, the frames taken and those which wait are
the items completed so far, in order and without their surroundings. -/
theorem frames_of_run (reads : expat.Reads document) (stream : document.IsStream)
    {calls : List FramerCall} {final : Drawn} (beginning : fedBy calls <+: document.bytes)
    (small : (fedBy calls).length < 2 ^ 31)
    (execution : Execution.run (framerStep expat heap) { framer := framerCreate, returned := [] }
      calls = some final) :
    final.framer.error = false ∧
      (∃ waiting, waiting.length = final.framer.frames.length ∧
        final.returned ++ waiting = document.completed (fedBy calls).length) ∧
      (framerHasFrame final.framer = false →
        final.returned = document.completed (fedBy calls).length) := by
  have start : Drawn.Follows document (fedBy calls) (fedBy calls)
      { framer := framerCreate, returned := [] } :=
    ⟨rfl, [], document.items, 0, rfl, draws_framerCreate reads⟩
  have follows := start.run reads stream beginning small execution
  have fed_small := follows.fed_small small
  obtain ⟨fed_eq, taken, later, position, returned_eq, draws⟩ := follows
  rw [List.append_nil] at fed_eq
  have queue_eq := draws.frames_eq stream fed_small
  have completed_eq : final.returned ++
      (later.filter fun item => item.stop ≤ final.framer.fed.length).map Item.bytes =
        document.completed (fedBy calls).length := by
    rw [← fed_eq, Document.completed, draws.filter_items, List.map_append, returned_eq]
  refine ⟨draws.error_eq, ⟨_, ?_, completed_eq⟩, fun drained => ?_⟩
  · rw [queue_eq, List.length_map, List.length_map]
  · have none_left : final.framer.frames = [] := by simpa [framerHasFrame] using drained
    rw [none_left, eq_comm, List.map_eq_nil_iff] at queue_eq
    rw [← completed_eq, queue_eq, List.map_nil, List.append_nil]

end

/-- A stream with one stanza. -/
def sampleStream : Document :=
  { prolog := []
    root :=
      { name := text "u" ++ [0xFF] ++ text "stream"
        attr := []
        bytes := text "<stream:stream xmlns:stream='u'>" }
    content := .other (text " ")
      (.empty
        { name := text "u" ++ [0xFF] ++ text "a", attr := [], bytes := text "<stream:a/>" }
        .nil)
    endTag := text "</stream:stream>"
    epilog := [] }

theorem reads_sampleStream : (Expat.reading sampleStream).Reads sampleStream :=
  sampleStream.reads_reading (by decide +kernel)

theorem isStream_sampleStream : sampleStream.IsStream where
  root_name := by decide +kernel
  content_names := ⟨⟨text "a", by decide +kernel, by decide +kernel⟩, trivial⟩

/-- The sample stream in three parts, with the first frame taken before the last part arrives. -/
def sampleCalls : List FramerCall :=
  [.add (sampleStream.bytes.take 35), .getFrame2 (dataInit 64),
    .add ((sampleStream.bytes.drop 35).take 10), .getFrame,
    .add (sampleStream.bytes.drop 45), .getFrame]

theorem frames_of_sampleCalls :
    ∃ final, Execution.run (framerStep (Expat.reading sampleStream) fun _ _ => 0)
        { framer := framerCreate, returned := [] } sampleCalls = some final ∧
      final.returned =
        [text "<stream:stream xmlns:stream='u'>", text "<stream:a/>", text "</stream:stream>"] := by
  obtain ⟨final, execution, drained⟩ :
      ∃ final, Execution.run (framerStep (Expat.reading sampleStream) fun _ _ => 0)
          { framer := framerCreate, returned := [] } sampleCalls = some final ∧
        framerHasFrame final.framer = false := by
    decide +kernel
  have fed_eq : fedBy sampleCalls = sampleStream.bytes := by decide +kernel
  have frames := frames_of_run reads_sampleStream isStream_sampleStream
    (fed_eq ▸ List.prefix_rfl) (by rw [fed_eq]; decide +kernel) execution
  refine ⟨final, execution, ?_⟩
  rw [frames.2.2 drained, fed_eq]
  decide +kernel

end Jabsocket
