import Jabsocket.Framing
import Jabsocket.Safety
import Mathlib.Data.List.Infix

/-!
# From the XMPP server to the browser

The bytes of the XMPP server reach `cm_readcb` in segments.  For one stream the frames passed on do
not depend on the segments.  When a second stream follows in the same segment, its header is not
recognised, the parser fails, and the frames which were already queued are not passed on.
-/

namespace Jabsocket

/-- A manager which was connected and has read nothing. -/
structure Conn.Connected (conn : Conn) : Prop where
  alive : conn.deleted = false
  bev_eq : ∃ bev, conn.cm.bev = some bev ∧ bev.input = []
  framer_eq : conn.cm.framer = some framerCreate

/-- What is queued for the browser after the bytes of the XMPP server arrived in segments. -/
def forwarded (env : Environment) (conn : Conn) (segments : List (List UInt8)) :
    Option (List Write) :=
  (Execution.run (connStep env) conn (segments.map .managerRead)).map Conn.queued

/-- What is queued for the browser does not depend on the segments. -/
def SegmentsDoNotMatter (env : Environment) (conn : Conn) (bytes : List UInt8) : Prop :=
  ∀ first second : List (List UInt8), first.flatten = bytes → second.flatten = bytes →
    forwarded env conn first = forwarded env conn second

/-! ## One segment -/

/-- The state in which `cm_readcb` finds a new segment. -/
def Conn.withInput (conn : Conn) (bev : XmppBev) (segment : List UInt8) : Conn :=
  { conn with cm := { conn.cm with bev := some { bev with input := bev.input ++ segment } } }

/-- The state in which `cm_readcb` leaves the manager. -/
def Conn.afterRead (conn : Conn) (bev : XmppBev) (input : List UInt8) (framer : Framer) : Conn :=
  { conn with cm := { conn.cm with bev := some { bev with input }, framer := some framer } }

/-- `cm_readcb` for a new segment. -/
def readSegment (env : Environment) (conn : Conn) (bev : XmppBev) (segment : List UInt8) : Conn :=
  cmReadcb env (conn.withInput bev segment)

theorem connStep_managerRead (env : Environment) {conn : Conn} (alive : conn.deleted = false)
    {bev : XmppBev} (bev_eq : conn.cm.bev = some bev) (segment : List UInt8) :
    connStep env conn (.managerRead segment) = some (readSegment env conn bev segment) := by
  simp [connStep, connStepSized, alive, bev_eq, readSegment, Conn.withInput]

theorem readSegment_eq (env : Environment) {conn : Conn} (bev : XmppBev) {framer : Framer}
    (framer_eq : conn.cm.framer = some framer) (segment : List UInt8) :
    readSegment env conn bev segment =
      let fed := feedFramer env.expat framer (bev.input ++ segment)
      let out :=
        if fed.failed then (fed.framer, conn.withInput bev segment)
        else forwardFrames env.heap fed.framer (conn.withInput bev segment)
      out.2.afterRead { bev with input := bev.input ++ segment } fed.input out.1 := by
  have bev_eq : (conn.withInput bev segment).cm.bev =
      some { bev with input := bev.input ++ segment } := rfl
  have kept : (conn.withInput bev segment).cm.framer = some framer := framer_eq
  rw [readSegment, cmReadcb, bev_eq, kept]
  rfl

section

variable (env : Environment) {conn : Conn} {bev : XmppBev} {framer : Framer}
  {segment : List UInt8}

/-- The parser rejects what arrived, and no frame is written. -/
theorem readSegment_of_rejected (unread : bev.input = [])
    (framer_eq : conn.cm.framer = some framer)
    (rejected : (feedFramer env.expat framer segment).failed = true) :
    readSegment env conn bev segment =
      (conn.withInput bev segment).afterRead bev (feedFramer env.expat framer segment).input
        (feedFramer env.expat framer segment).framer := by
  rw [readSegment_eq env bev framer_eq, unread, List.nil_append]
  dsimp only
  rw [if_pos rejected]
  rfl

/-- The parser accepts what arrived, and the frames are written. -/
theorem readSegment_of_accepted (unread : bev.input = [])
    (framer_eq : conn.cm.framer = some framer)
    (accepted : (feedFramer env.expat framer segment).failed = false) :
    readSegment env conn bev segment =
      (forwardFrames env.heap (feedFramer env.expat framer segment).framer
          (conn.withInput bev segment)).2.afterRead bev (feedFramer env.expat framer segment).input
        (forwardFrames env.heap (feedFramer env.expat framer segment).framer
          (conn.withInput bev segment)).1 := by
  rw [readSegment_eq env bev framer_eq, unread, List.nil_append]
  dsimp only
  rw [accepted, if_neg Bool.false_ne_true]
  rfl

theorem forwarded_cons (alive : conn.deleted = false) (bev_eq : conn.cm.bev = some bev)
    (segments : List (List UInt8)) :
    forwarded env conn (segment :: segments) =
      forwarded env (readSegment env conn bev segment) segments := by
  rw [forwarded, List.map_cons, Execution.run, connStep_managerRead env alive bev_eq]
  rfl

end

/-- The frames are written one after the other; nothing else of the connection changes.  A property
of the framer and of what was written so far is kept if every frame keeps it. -/
theorem forwardFrames_induction (heap : Heap) (framer : Framer) (conn : Conn)
    (kept : Framer → List (List UInt8) → Prop) (start : kept framer [])
    (step : ∀ framer payloads head frames, kept framer payloads → framer.frames = head :: frames →
      kept (framerGetFrame2 heap framer head (dataInit frameCapacity)).1
        (payloads ++ [(framerGetFrame2 heap framer head (dataInit frameCapacity)).2.1.buffer])) :
    (forwardFrames heap framer conn).2.deleted = conn.deleted ∧
      (forwardFrames heap framer conn).2.cm = conn.cm ∧
      (forwardFrames heap framer conn).1.frames = [] ∧
      ∃ payloads, kept (forwardFrames heap framer conn).1 payloads ∧
        (forwardFrames heap framer conn).2.queued =
          conn.queued ++ payloads.map (.frame opcodeText) := by
  let written : Framer × Conn → Prop := fun state =>
    state.2.deleted = conn.deleted ∧ state.2.cm = conn.cm ∧
      ∃ payloads, kept state.1 payloads ∧
        state.2.queued = conn.queued ++ payloads.map (.frame opcodeText)
  have outcome : written (forwardFrames heap framer conn) ∧
      (forwardFrames heap framer conn).1.frames = [] := by
    refine Loop.run_induction written (fun state => written state ∧ state.1.frames = [])
      (forwardRound_decreasing heap) ?_ ?_
      (show written (framer, conn) from ⟨rfl, rfl, [], start, by simp⟩)
    · rintro state next ⟨deleted_eq, cm_eq, payloads, kept_state, queued_eq⟩ again
      unfold forwardRound at again
      split at again
      · cases again
      · rename_i head frames frames_eq
        injection again with next_eq
        rw [← next_eq]
        refine ⟨deleted_eq, cm_eq, _, step state.1 payloads head frames kept_state frames_eq, ?_⟩
        simp [wsconnWrite, Conn.writeFrame, queued_eq]
    · intro state final written_state leave
      unfold forwardRound at leave
      split at leave
      · rename_i frames_eq
        injection leave with final_eq
        rw [← final_eq]
        exact ⟨written_state, frames_eq⟩
      · cases leave
  obtain ⟨⟨deleted_eq, cm_eq, payloads, kept_final, queued_eq⟩, drained⟩ := outcome
  exact ⟨deleted_eq, cm_eq, drained, payloads, kept_final, queued_eq⟩

/-- One frame is written for each frame of the queue. -/
theorem forwardFrames_length (heap : Heap) (framer : Framer) (conn : Conn) :
    (forwardFrames heap framer conn).2.queued.length =
      conn.queued.length + framer.frames.length := by
  obtain ⟨-, -, drained, payloads, length_eq, queued_eq⟩ := forwardFrames_induction heap framer conn
    (fun state payloads => payloads.length + state.frames.length = framer.frames.length)
    (Nat.zero_add framer.frames.length) fun state payloads head frames length_eq frames_eq => by
      rw [frames_eq, List.length_cons] at length_eq
      rw [framerGetFrame2_frames, frames_eq, List.tail_cons, List.length_append,
        List.length_singleton]
      omega
  rw [drained, List.length_nil, Nat.add_zero] at length_eq
  rw [queued_eq, List.length_append, List.length_map, length_eq]

/-! ## Feeding the framer -/

theorem framerAdd_result (expat : Expat) (framer : Framer) (message : List UInt8) :
    (framerAdd expat framer message).2 = expat.accepts (framer.fed ++ message) ∧
      (framerAdd expat framer message).1.fed = framer.fed ++ message := by
  simp only [framerAdd]
  split_ifs with accepted
  · exact ⟨accepted.symm, rfl⟩
  · exact ⟨by simpa using accepted, rfl⟩

/-- One round, when the first piece does not look like the header of a new stream or the framer is
new. -/
theorem feedRound_eq (expat : Expat) {state : Feeding} (unread : state.input ≠ [])
    (quiet : state.first = true → state.framer = framerCreate ∨
      isRestart (state.input.take 1024) = false) :
    feedRound expat state =
      if expat.accepts (state.framer.fed ++ state.input.take 1024) then
        .again
          { framer := (framerAdd expat state.framer (state.input.take 1024)).1
            input := state.input.drop 1024
            first := false
            failed := false }
      else
        .leave
          { framer := (framerAdd expat state.framer (state.input.take 1024)).1
            input := state.input.drop 1024
            first := false
            failed := true } := by
  have framer_eq : (if (state.first && isRestart (state.input.take 1024)) = true then
      framerReset state.framer else state.framer) = state.framer := by
    split_ifs with restart
    · obtain ⟨first, looks⟩ := Bool.and_eq_true_iff.mp restart
      obtain created | other := quiet first
      · rw [created]
        rfl
      · simp [looks] at other
    · rfl
  have result := (framerAdd_result expat state.framer (state.input.take 1024)).1
  simp only [feedRound, List.isEmpty_iff, unread, if_false, framer_eq]
  rw [← result]
  cases outcome : framerAdd expat state.framer (state.input.take 1024) with
  | mk framer accepted => cases accepted <;> rfl

/-- The first loop of `cm_readcb` feeds all of its input unless the parser rejects it.  A property
of the framer is kept if every accepted piece keeps it. -/
theorem feedFramer_induction {expat : Expat} {framer : Framer} {input : List UInt8}
    (quiet : framer = framerCreate ∨ isRestart (input.take 1024) = false)
    (accepted : expat.accepts framer.fed = true) (kept : Framer → Prop) (start : kept framer)
    (step : ∀ state piece rest, kept state → state.fed ++ (piece ++ rest) = framer.fed ++ input →
      expat.accepts (state.fed ++ piece) = true → kept (framerAdd expat state piece).1) :
    (feedFramer expat framer input).failed = !expat.accepts (framer.fed ++ input) ∧
      ((feedFramer expat framer input).failed = false →
        (feedFramer expat framer input).input = [] ∧
          (feedFramer expat framer input).framer.fed = framer.fed ++ input ∧
          kept (feedFramer expat framer input).framer) := by
  let before : Feeding → Prop := fun state =>
    state.failed = false ∧ state.framer.fed ++ state.input = framer.fed ++ input ∧
      expat.accepts state.framer.fed = true ∧ kept state.framer ∧
      (state.first = true → state.framer = framerCreate ∨
        isRestart (state.input.take 1024) = false)
  let after : Feeding → Prop := fun state =>
    state.failed = !expat.accepts (framer.fed ++ input) ∧
      (state.failed = false →
        state.input = [] ∧ state.framer.fed = framer.fed ++ input ∧ kept state.framer)
  refine Loop.run_induction before after (feedRound_decreasing expat) ?_ ?_
    (show before { framer, input, first := true, failed := false } from
      ⟨rfl, rfl, accepted, start, fun _ => quiet⟩)
  · rintro state next ⟨unfailed, fed_eq, accepted_fed, kept_state, quiet_state⟩ again
    have unread : state.input ≠ [] := fun finished => by simp [feedRound, finished] at again
    rw [feedRound_eq expat unread quiet_state] at again
    split_ifs at again with accepted_piece
    injection again with next_eq
    rw [← next_eq]
    have result := (framerAdd_result expat state.framer (state.input.take 1024)).2
    refine ⟨rfl, ?_, ?_, step state.framer _ (state.input.drop 1024) kept_state ?_ accepted_piece,
      fun first => by cases first⟩
    · dsimp only
      rw [result, List.append_assoc, List.take_append_drop, fed_eq]
    · dsimp only
      rw [result, accepted_piece]
    · rw [List.take_append_drop, fed_eq]
  · rintro state final ⟨unfailed, fed_eq, accepted_fed, kept_state, quiet_state⟩ leave
    by_cases finished : state.input = []
    · obtain rfl : state = final := by simpa [feedRound, finished] using leave
      rw [finished, List.append_nil] at fed_eq
      exact ⟨by rw [unfailed, ← fed_eq, accepted_fed]; rfl, fun _ => ⟨finished, fed_eq, kept_state⟩⟩
    · rw [feedRound_eq expat finished quiet_state] at leave
      split_ifs at leave with accepted_piece
      injection leave with final_eq
      rw [← final_eq]
      have rejected : expat.accepts (framer.fed ++ input) = false := by
        rw [← fed_eq, ← List.take_append_drop 1024 state.input, ← List.append_assoc]
        by_contra accepted_all
        exact accepted_piece (expat.accepts_of_append _ _ ((Bool.not_eq_false _).mp accepted_all))
      exact ⟨by rw [rejected]; rfl, fun unfailed => by cases unfailed⟩

/-! ## One stream -/

theorem isPrefix_iff (start string : List UInt8) :
    isPrefix start string = true ↔ start <+: cstr string := by
  rw [isPrefix, Bool.and_eq_true, decide_eq_true_eq, beq_iff_eq]
  constructor
  · rintro ⟨-, take_eq⟩
    rw [← take_eq]
    exact List.take_prefix _ _
  · intro beginning
    exact ⟨beginning.length_le, (List.prefix_iff_eq_take.mp beginning).symm⟩

theorem isRestart_append {piece : List UInt8} (restart : isRestart piece = true)
    (more : List UInt8) : isRestart (piece ++ more) = true := by
  have longer : cstr piece <+: cstr (piece ++ more) := by
    rw [cstr, cstr, List.takeWhile_append]
    split_ifs
    · exact (List.takeWhile_prefix _).trans (List.prefix_append _ _)
    · exact List.prefix_rfl
  rw [isRestart, Bool.or_eq_true, isPrefix_iff, isPrefix_iff] at restart ⊢
  exact restart.imp (fun declared => declared.trans longer) fun opened => opened.trans longer

/-- The beginning of a stream in which framing is correct and nothing but its own header, in front
of or behind its prolog, looks like the header of a stream. -/
structure Document.IsPlain (document : Document) (sent : List UInt8) : Prop where
  isStream : document.IsStream
  tagged : document.root.bytes ≠ []
  small : sent.length < 2 ^ 31
  unique : ∀ position, 0 < position → position ≠ document.prolog.length →
    isRestart (sent.drop position) = false

theorem Document.IsPlain.of_append {document : Document} {sent later : List UInt8}
    (plain : document.IsPlain (sent ++ later)) : document.IsPlain sent where
  isStream := plain.isStream
  tagged := plain.tagged
  small := by
    have bound := plain.small
    rw [List.length_append] at bound
    omega
  unique position positive behind := by
    by_contra restart
    have looks := isRestart_append ((Bool.not_eq_false _).mp restart)
      (later.drop (position - sent.length))
    rw [← List.drop_append, plain.unique position positive behind] at looks
    cases looks

/-- Behind the end there is nothing, so that only the positions inside are to be looked at. -/
theorem isRestart_drop_eq_false {sent : List UInt8} {bound skipped : Nat}
    (length_le : sent.length ≤ bound)
    (checked : ∀ position < bound, 0 < position → position ≠ skipped →
      isRestart (sent.drop position) = false)
    (position : Nat) (positive : 0 < position) (other : position ≠ skipped) :
    isRestart (sent.drop position) = false := by
  by_cases inside : position < bound
  · exact checked position inside positive other
  · rw [List.drop_eq_nil_of_le (by omega)]
    decide +kernel

/-- The frame for an item, cut to the buffer of `cm_readcb`. -/
def Item.written (item : Item) : Write :=
  .frame opcodeText (item.bytes.take frameCapacity)

section

variable {document : Document} {framer : Framer} {taken later : List Item} {position : Nat}

/-- Another part of the stream is fed. -/
theorem Draws.feedFramer (draws : Draws document framer taken later position) {expat : Expat}
    (reads : expat.Reads document) {input : List UInt8}
    (quiet : framer = framerCreate ∨ isRestart (input.take 1024) = false)
    (beginning : framer.fed ++ input <+: document.bytes) :
    (feedFramer expat framer input).failed = false ∧
      (feedFramer expat framer input).input = [] ∧
      (feedFramer expat framer input).framer.fed = framer.fed ++ input ∧
      Draws document (feedFramer expat framer input).framer taken later position := by
  obtain ⟨failed_eq, outcome⟩ := feedFramer_induction quiet (reads _ draws.fed_isPrefix).1
    (fun state => Draws document state taken later position) draws
    fun state piece rest draws_state split_fed _ => by
      refine (draws_state.add reads (List.IsPrefix.trans ⟨rest, ?_⟩ beginning)).2.2
      rw [List.append_assoc, split_fed]
  rw [(reads _ beginning).1, Bool.not_true] at failed_eq
  exact ⟨failed_eq, outcome failed_eq⟩

/-- The complete items are passed on. -/
theorem Draws.forwardFrames (draws : Draws document framer taken later position)
    (stream : document.IsStream) (small : framer.fed.length < 2 ^ 31) (heap : Heap) (conn : Conn) :
    (forwardFrames heap framer conn).2.deleted = conn.deleted ∧
      (forwardFrames heap framer conn).1.frames = [] ∧
      (forwardFrames heap framer conn).1.fed = framer.fed ∧
      ∃ items later' position',
        (forwardFrames heap framer conn).2.queued = conn.queued ++ items.map Item.written ∧
          Draws document (forwardFrames heap framer conn).1 (taken ++ items) later' position' := by
  obtain ⟨deleted_eq, -, drained, payloads, ⟨items, later', position', rfl, fed_eq, draws'⟩,
    queued_eq⟩ := forwardFrames_induction heap framer conn
      (fun state payloads => ∃ items later' position',
        payloads = items.map (fun item => item.bytes.take frameCapacity) ∧
          state.fed = framer.fed ∧ Draws document state (taken ++ items) later' position')
      ⟨[], later, position, rfl, rfl, by simpa using draws⟩
      fun state payloads head frames kept frames_eq => by
        obtain ⟨items, later', position', rfl, fed_eq, draws⟩ := kept
        obtain ⟨item, later'', rfl, size_eq, bytes_eq, dropped, draws_item⟩ :=
          draws.drop heap stream (by rwa [fed_eq]) frames_eq
        rw [framerGetFrame2, size_eq]
        refine ⟨items ++ [item], later'', item.stop, ?_, by rw [dropped, fed_eq], ?_⟩
        · simp [bufferGetData2, dataSetData, dataInit, bytes_eq]
        · rwa [← List.append_assoc]
  refine ⟨deleted_eq, drained, fed_eq, items, later', position', ?_, draws'⟩
  rw [queued_eq, List.map_map]
  rfl

end

/-- The header of a stream at the front of the input resets the framer. -/
theorem feedFramer_of_restart (expat : Expat) (framer : Framer) {input : List UInt8}
    (restart : isRestart (input.take 1024) = true) :
    feedFramer expat framer input = feedFramer expat framerCreate input := by
  have unread : input ≠ [] := by
    rintro rfl
    revert restart
    decide +kernel
  refine Loop.run_eq_of_body_eq (feedRound_decreasing expat) ?_
  simp only [feedRound, List.isEmpty_iff, unread, if_false, restart, Bool.and_self, if_true]
  rfl

/-- A framer which was fed what has arrived of a stream, perhaps without the prolog, and from which
all complete items were taken. -/
structure Shows (document : Document) (received : List UInt8) (taken : List Item)
    (framer : Framer) : Prop where
  created : framer.fed = [] → framer = framerCreate
  drained : framer.frames = []
  fed_eq : ∃ skipped, (skipped = 0 ∨ skipped = document.prolog.length) ∧
    skipped ≤ received.length ∧ framer.fed = received.drop skipped ∧
    ∃ later position, Draws (document.without skipped) framer taken later position

section

variable {document : Document} {framer : Framer} {received segment : List UInt8}
  {taken : List Item}

theorem shows_framerCreate {expat : Expat} (understands : expat.Understands document) :
    Shows document [] [] framerCreate where
  created _ := rfl
  drained := rfl
  fed_eq := ⟨0, Or.inl rfl, Nat.le_refl 0, rfl, _, 0, draws_framerCreate understands.1⟩

theorem Document.IsStream.without (stream : document.IsStream) (skipped : Nat) :
    (document.without skipped).IsStream where
  root_name := stream.root_name
  content_names := stream.content_names

theorem Expat.Understands.reads_without {expat : Expat} (understands : expat.Understands document)
    {skipped : Nat} (ends : skipped = 0 ∨ skipped = document.prolog.length) :
    expat.Reads (document.without skipped) := by
  rcases ends with rfl | rfl
  · exact understands.1
  · exact understands.2

/-- The items which were taken are the complete ones. -/
theorem Shows.taken_eq (shows : Shows document received taken framer)
    (stream : document.IsStream) (small : received.length < 2 ^ 31) :
    taken.map Item.written =
      (document.items.filter fun item => item.stop ≤ received.length).map Item.written := by
  obtain ⟨skipped, ends, reached, fed_eq, later, position, draws⟩ := shows.fed_eq
  have inside : skipped ≤ document.prolog.length := by omega
  have fed_length : framer.fed.length = received.length - skipped := by
    rw [fed_eq, List.length_drop]
  have none_left := draws.frames_eq (stream.without skipped) (by omega)
  rw [shows.drained, eq_comm, List.map_eq_nil_iff] at none_left
  have complete := draws.filter_items
  rw [none_left, List.append_nil, fed_length] at complete
  rw [document.items_without inside, List.filter_map, List.map_map, ← complete]
  have moved : Item.written ∘ Item.behind skipped = Item.written := rfl
  rw [moved]
  congr 1
  refine List.filter_congr fun item _ => ?_
  rw [Function.comp_apply, Item.stop_behind, decide_eq_decide]
  omega

/-- Nothing is taken before the header has arrived. -/
theorem Shows.taken_eq_nil (shows : Shows document received taken framer)
    (tagged : document.root.bytes ≠ []) (early : received.length ≤ document.prolog.length) :
    taken = [] := by
  obtain ⟨skipped, ends, reached, fed_eq, later, position, draws⟩ := shows.fed_eq
  refine List.eq_nil_iff_forall_not_mem.mpr fun item member => ?_
  have complete := draws.completed item member
  have listed : item ∈ (document.without skipped).items := by
    rw [draws.items_eq]
    exact List.mem_append_left _ member
  have behind := (document.without skipped).length_prolog_lt_stop tagged listed
  rw [fed_eq, List.length_drop] at complete
  rw [Document.without, List.length_drop] at behind
  omega

/-- The header of the stream is at the front of a segment: the framer starts again, and has not
seen the prolog. -/
theorem Shows.restart (shows : Shows document received taken framer)
    (plain : document.IsPlain (received ++ segment))
    {expat : Expat} (understands : expat.Understands document)
    (restart : isRestart (segment.take 1024) = true) :
    Shows document received taken framerCreate := by
  have looks : isRestart segment = true := by
    have longer := isRestart_append restart (segment.drop 1024)
    rwa [List.take_append_drop] at longer
  have place : received.length = 0 ∨ received.length = document.prolog.length := by
    by_contra elsewhere
    rw [not_or] at elsewhere
    have other := plain.unique received.length (Nat.pos_of_ne_zero elsewhere.1) elsewhere.2
    rw [List.drop_left, looks] at other
    cases other
  rcases place with nothing | header
  · have fed_nil : framer.fed = [] := by
      obtain ⟨skipped, -, -, fed_eq, -⟩ := shows.fed_eq
      rw [fed_eq, List.eq_nil_of_length_eq_zero nothing, List.drop_nil]
    rwa [← shows.created fed_nil]
  · obtain rfl := shows.taken_eq_nil plain.tagged (Nat.le_of_eq header)
    exact
      { created := fun _ => rfl
        drained := rfl
        fed_eq := ⟨document.prolog.length, Or.inr rfl, Nat.le_of_eq header.symm,
          by rw [← header, List.drop_length]; rfl, _, 0, draws_framerCreate understands.2⟩ }

/-- A segment at the front of which the framer does not start again. -/
theorem Shows.receive_quiet (shows : Shows document received taken framer)
    (nonempty : segment ≠ []) {expat : Expat} (understands : expat.Understands document)
    (beginning : received ++ segment <+: document.bytes) (stream : document.IsStream)
    (small : (received ++ segment).length < 2 ^ 31)
    (quiet : framer = framerCreate ∨ isRestart (segment.take 1024) = false)
    (heap : Heap) (conn : Conn) :
    (feedFramer expat framer segment).failed = false ∧
      (feedFramer expat framer segment).input = [] ∧
      (forwardFrames heap (feedFramer expat framer segment).framer conn).2.deleted =
        conn.deleted ∧
      ∃ items : List Item,
        (forwardFrames heap (feedFramer expat framer segment).framer conn).2.queued =
            conn.queued ++ items.map Item.written ∧
          Shows document (received ++ segment) (taken ++ items)
            (forwardFrames heap (feedFramer expat framer segment).framer conn).1 := by
  obtain ⟨skipped, ends, reached, fed_eq, later, position, draws⟩ := shows.fed_eq
  have inside : skipped ≤ document.prolog.length := by omega
  have fed_whole : framer.fed ++ segment = (received ++ segment).drop skipped := by
    rw [fed_eq, List.drop_append_of_le_length reached]
  obtain ⟨failed_eq, input_eq, fed_all, draws_fed⟩ :=
    draws.feedFramer (understands.reads_without ends) quiet (by
      rw [fed_whole, document.bytes_without inside]
      exact List.IsPrefix.drop beginning skipped)
  refine ⟨failed_eq, input_eq, ?_⟩
  generalize (feedFramer expat framer segment).framer = fed at draws_fed fed_all
  have fed_small : fed.fed.length < 2 ^ 31 := by
    rw [fed_all, fed_whole, List.length_drop]
    omega
  obtain ⟨deleted_eq, drained, fed_kept, items, later', position', queued_eq, draws'⟩ :=
    draws_fed.forwardFrames (stream.without skipped) fed_small heap conn
  refine ⟨deleted_eq, items, queued_eq, ?_, drained, skipped, ends, ?_, ?_, later', position',
    draws'⟩
  · intro unfed
    rw [fed_kept, fed_all] at unfed
    exact absurd (List.append_eq_nil_iff.mp unfed).2 nonempty
  · rw [List.length_append]
    omega
  · rw [fed_kept, fed_all, fed_whole]

/-- A segment is fed to the framer, and the items which it completes are passed on. -/
theorem Shows.receive (shows : Shows document received taken framer) (nonempty : segment ≠ [])
    {expat : Expat} (understands : expat.Understands document)
    (beginning : received ++ segment <+: document.bytes)
    (plain : document.IsPlain (received ++ segment)) (heap : Heap) (conn : Conn) :
    (feedFramer expat framer segment).failed = false ∧
      (feedFramer expat framer segment).input = [] ∧
      (forwardFrames heap (feedFramer expat framer segment).framer conn).2.deleted =
        conn.deleted ∧
      ∃ items : List Item,
        (forwardFrames heap (feedFramer expat framer segment).framer conn).2.queued =
            conn.queued ++ items.map Item.written ∧
          Shows document (received ++ segment) (taken ++ items)
            (forwardFrames heap (feedFramer expat framer segment).framer conn).1 := by
  by_cases restart : isRestart (segment.take 1024) = true
  · rw [feedFramer_of_restart expat framer restart]
    exact (shows.restart plain understands restart).receive_quiet nonempty understands beginning
      plain.isStream plain.small (Or.inl rfl) heap conn
  · exact shows.receive_quiet nonempty understands beginning plain.isStream plain.small
      (Or.inr ((Bool.not_eq_true _).mp restart)) heap conn

end

theorem readSegment_nil (env : Environment) {conn : Conn} {bev : XmppBev}
    (bev_eq : conn.cm.bev = some bev) (unread : bev.input = []) {framer : Framer}
    (framer_eq : conn.cm.framer = some framer) (drained : framer.frames = []) :
    readSegment env conn bev [] = conn := by
  have fed_eq : feedFramer env.expat framer [] =
      { framer, input := [], first := true, failed := false } :=
    Loop.run_of_leave _ rfl
  have forwarded_eq : forwardFrames env.heap framer conn = (framer, conn) :=
    Loop.run_of_leave _ (by simp [forwardRound, drained])
  have same : conn.withInput bev [] = conn := by
    rw [Conn.withInput, List.append_nil, ← bev_eq]
  rw [readSegment_eq env bev framer_eq, same, List.append_nil, unread, fed_eq]
  simp only [Bool.false_eq_true, if_false, forwarded_eq]
  rw [Conn.afterRead, ← unread, ← bev_eq, ← framer_eq]

/-- A part of the stream has arrived, and its complete items were passed on. -/
structure Delivering (document : Document) (sent unsent : List UInt8) (queued : List Write)
    (conn : Conn) : Prop where
  alive : conn.deleted = false
  bev_eq : ∃ bev, conn.cm.bev = some bev ∧ bev.input = []
  framer_eq : ∃ framer received taken, conn.cm.framer = some framer ∧
    received ++ unsent = sent ∧ conn.queued = queued ++ taken.map Item.written ∧
    Shows document received taken framer

/-- Another segment of the stream arrives. -/
theorem Delivering.readSegment {document : Document} {sent segment unsent : List UInt8}
    {queued : List Write} {conn : Conn} {bev : XmppBev}
    (delivering : Delivering document sent (segment ++ unsent) queued conn)
    (bev_eq : conn.cm.bev = some bev) {env : Environment}
    (understands : env.expat.Understands document) (beginning : sent <+: document.bytes)
    (plain : document.IsPlain sent) :
    Delivering document sent unsent queued (readSegment env conn bev segment) := by
  obtain ⟨alive, ⟨_, bev_eq', unread⟩, framer, received, taken, framer_eq, arrived, queued_eq,
    shows⟩ := delivering
  obtain rfl := Option.some.inj (bev_eq.symm.trans bev_eq')
  by_cases empty : segment = []
  · subst empty
    rw [readSegment_nil env bev_eq unread framer_eq shows.drained]
    exact ⟨alive, ⟨_, bev_eq, unread⟩, framer, received, taken, framer_eq, arrived, queued_eq,
      shows⟩
  rw [← List.append_assoc] at arrived
  subst arrived
  obtain ⟨failed_eq, input_eq, deleted_eq, items, queued_eq', shows'⟩ :=
    shows.receive empty understands (List.IsPrefix.trans (List.prefix_append _ _) beginning)
      plain.of_append env.heap (conn.withInput bev segment)
  rw [readSegment_of_accepted env unread framer_eq failed_eq, input_eq]
  refine ⟨deleted_eq.trans alive, ⟨_, rfl, rfl⟩, _, received ++ segment, taken ++ items, rfl, rfl,
    ?_, shows'⟩
  rw [Conn.afterRead, queued_eq', Conn.withInput, queued_eq, List.map_append, List.append_assoc]

/-- All of a stream arrives in one segment.  Nothing in it can look like a restart. -/
theorem Conn.Connected.forwarded_single {conn : Conn} (connected : conn.Connected)
    {env : Environment} {document : Document} {sent : List UInt8} (nonempty : sent ≠ [])
    (understands : env.expat.Understands document) (beginning : sent <+: document.bytes)
    (stream : document.IsStream) (small : sent.length < 2 ^ 31) :
    forwarded env conn [sent] =
      some (conn.queued ++
        (document.items.filter fun item => item.stop ≤ sent.length).map Item.written) := by
  obtain ⟨bev, bev_eq, unread⟩ := connected.bev_eq
  obtain ⟨failed_eq, -, -, items, queued_eq, shows⟩ :=
    (shows_framerCreate understands).receive_quiet nonempty understands beginning stream small
      (Or.inl rfl) env.heap (conn.withInput bev sent)
  have shown := shows.taken_eq stream small
  rw [List.nil_append, List.nil_append] at shown
  rw [forwarded_cons env connected.alive bev_eq,
    readSegment_of_accepted env unread connected.framer_eq failed_eq, ← shown]
  exact congrArg some queued_eq

/-- All segments of the stream arrive. -/
theorem Delivering.run {document : Document} {sent : List UInt8} {queued : List Write}
    {segments : List (List UInt8)} {conn : Conn}
    (delivering : Delivering document sent segments.flatten queued conn) {env : Environment}
    (understands : env.expat.Understands document) (beginning : sent <+: document.bytes)
    (plain : document.IsPlain sent) :
    ∃ final, Execution.run (connStep env) conn (segments.map .managerRead) = some final ∧
      Delivering document sent [] queued final := by
  induction segments generalizing conn with
  | nil => exact ⟨conn, rfl, delivering⟩
  | cons segment segments ih =>
      obtain ⟨bev, bev_eq, -⟩ := delivering.bev_eq
      obtain ⟨final, execution, delivered⟩ :=
        ih (delivering.readSegment bev_eq understands beginning plain)
      refine ⟨final, ?_, delivered⟩
      rw [List.map_cons, Execution.run_cons]
      exact ⟨_, connStep_managerRead env delivering.alive bev_eq segment, execution⟩

theorem Conn.Connected.delivering {conn : Conn} (connected : conn.Connected) {document : Document}
    {expat : Expat} (understands : expat.Understands document) (sent : List UInt8) :
    Delivering document sent sent conn.queued conn where
  alive := connected.alive
  bev_eq := connected.bev_eq
  framer_eq := ⟨framerCreate, [], [], connected.framer_eq, rfl, by simp,
    shows_framerCreate understands⟩

/-- For a plain stream the complete items are passed on, whatever the segments are. -/
theorem Conn.Connected.forwarded_plain {conn : Conn} (connected : conn.Connected)
    {env : Environment} {document : Document} {sent : List UInt8}
    (understands : env.expat.Understands document) (beginning : sent <+: document.bytes)
    (plain : document.IsPlain sent) {segments : List (List UInt8)}
    (split_sent : segments.flatten = sent) :
    forwarded env conn segments =
      some (conn.queued ++
        (document.items.filter fun item => item.stop ≤ sent.length).map Item.written) := by
  have start : Delivering document sent segments.flatten conn.queued conn := by
    rw [split_sent]
    exact connected.delivering understands sent
  obtain ⟨final, execution, delivered⟩ := start.run understands beginning plain
  obtain ⟨framer, received, taken, framer_eq, arrived, queued_eq, shows⟩ := delivered.framer_eq
  rw [List.append_nil] at arrived
  subst arrived
  rw [forwarded, execution, Option.map_some, queued_eq,
    shows.taken_eq plain.isStream plain.small]

/-! ## Several streams -/

/-- A stream of the XMPP server, as far as it was sent. -/
structure Sent where
  document : Document
  bytes : List UInt8

/-- At least the start tag of the stream was sent, and the parser understands the stream. -/
structure Sent.Understood (sent : Sent) (expat : Expat) : Prop where
  reads : expat.Reads sent.document
  beginning : sent.bytes <+: sent.document.bytes
  opened : sent.document.inner ≤ sent.bytes.length
  root_name : bareName sent.document.root.name = some (text "stream")

/-- The stream is plain, and the parser does not need its declaration. -/
structure Sent.IsPlain (sent : Sent) (expat : Expat) : Prop where
  plain : sent.document.IsPlain sent.bytes
  reads_bare : expat.Reads (sent.document.without sent.document.prolog.length)

/-- The parser takes no second document: a stream which is followed by another one is ended, or the
other one begins with a declaration. -/
def Expat.RejectsSecond (expat : Expat) (streams : List Sent) : Prop :=
  streams.IsChain fun first second => expat.accepts (first.bytes ++ second.bytes) = false

theorem feedFramer_failed (expat : Expat) (input : List UInt8) :
    (feedFramer expat framerCreate input).failed = !expat.accepts input :=
  (feedFramer_induction (Or.inl rfl) expat.accepts_nil (fun _ => True) trivial
    fun _ _ _ _ _ _ => trivial).1

/-- Nothing is passed on from a segment which the parser rejects. -/
theorem Conn.Connected.forwarded_rejected {conn : Conn} (connected : conn.Connected)
    {env : Environment} {bytes : List UInt8} (rejected : env.expat.accepts bytes = false) :
    forwarded env conn [bytes] = some conn.queued := by
  obtain ⟨bev, bev_eq, unread⟩ := connected.bev_eq
  have failed_eq := feedFramer_failed env.expat bytes
  rw [rejected, Bool.not_false] at failed_eq
  rw [forwarded_cons env connected.alive bev_eq,
    readSegment_of_rejected env unread connected.framer_eq failed_eq]
  rfl

/-- A segment never takes back what was passed on. -/
theorem readSegment_grows (env : Environment) {conn : Conn} (bev : XmppBev) {framer : Framer}
    (framer_eq : conn.cm.framer = some framer) (segment : List UInt8) :
    conn.queued.length ≤ (readSegment env conn bev segment).queued.length ∧
      (readSegment env conn bev segment).deleted = conn.deleted ∧
      (∃ bev', (readSegment env conn bev segment).cm.bev = some bev') ∧
      ∃ framer', (readSegment env conn bev segment).cm.framer = some framer' := by
  rw [readSegment_eq env bev framer_eq]
  dsimp only
  split_ifs with failed
  · exact ⟨Nat.le_refl _, rfl, ⟨_, rfl⟩, _, rfl⟩
  · have deleted_eq := (forwardFrames_induction env.heap
      (feedFramer env.expat framer (bev.input ++ segment)).framer (conn.withInput bev segment)
      (fun _ _ => True) trivial fun _ _ _ _ _ _ => trivial).1
    refine ⟨?_, deleted_eq, ⟨_, rfl⟩, _, rfl⟩
    rw [Conn.afterRead, forwardFrames_length]
    exact Nat.le_add_right _ _

/-- The start tag of a stream is passed on when the stream is in a segment of its own. -/
theorem Conn.Connected.forwarded_first {conn : Conn} (connected : conn.Connected)
    {env : Environment} {sent : Sent} (understood : sent.Understood env.expat) (rest : List UInt8) :
    ∃ queued, forwarded env conn [sent.bytes, rest] = some queued ∧
      conn.queued.length < queued.length := by
  obtain ⟨bev, bev_eq, unread⟩ := connected.bev_eq
  obtain ⟨failed_eq, -, fed_eq, draws⟩ := (draws_framerCreate understood.reads).feedFramer
    understood.reads (Or.inl rfl) (show framerCreate.fed ++ sent.bytes <+: _ from
      understood.beginning)
  have queue_ne : (feedFramer env.expat framerCreate sent.bytes).framer.frames ≠ [] := by
    have frames_eq := draws.mirrors.frames_eq
    rw [List.map_nil, List.nil_append] at frames_eq
    rw [← frames_eq, fed_eq]
    exact framerAfter_frames_ne_nil understood.root_name understood.opened
  have longer : conn.queued.length < (readSegment env conn bev sent.bytes).queued.length := by
    rw [readSegment_of_accepted env unread connected.framer_eq failed_eq, Conn.afterRead,
      forwardFrames_length]
    exact Nat.lt_add_of_pos_right (List.length_pos_of_ne_nil queue_ne)
  obtain ⟨-, deleted_eq, ⟨bev', bev_eq'⟩, framer', framer_eq'⟩ :=
    readSegment_grows env bev connected.framer_eq sent.bytes
  have second_grows := (readSegment_grows env bev' framer_eq' rest).1
  refine ⟨(readSegment env (readSegment env conn bev sent.bytes) bev' rest).queued, ?_, by omega⟩
  rw [forwarded_cons env connected.alive bev_eq,
    forwarded_cons env (deleted_eq.trans connected.alive) bev_eq']
  rfl

/-- Segments do not matter only if a single stream is sent, and they do not matter if it is
plain. -/
theorem segmentsDoNotMatter_single {env : Environment} {conn : Conn} (connected : conn.Connected)
    {streams : List Sent} (sending : streams ≠ [])
    (understood : ∀ sent ∈ streams, sent.Understood env.expat)
    (rejects : env.expat.RejectsSecond streams) :
    (SegmentsDoNotMatter env conn (streams.flatMap Sent.bytes) → ∃ sent, streams = [sent]) ∧
      ∀ sent, streams = [sent] → sent.IsPlain env.expat →
        SegmentsDoNotMatter env conn (streams.flatMap Sent.bytes) := by
  constructor
  · intro independent
    match streams, sending with
    | [sent], _ => exact ⟨sent, rfl⟩
    | sent :: next :: others, _ =>
        exfalso
        have rejected :
            env.expat.accepts ((sent :: next :: others).flatMap Sent.bytes) = false := by
          by_contra accepted
          have accepted_next := env.expat.accepts_of_append (sent.bytes ++ next.bytes)
            (others.flatMap Sent.bytes) (by simpa using accepted)
          rw [(List.isChain_cons_cons.mp rejects).1] at accepted_next
          cases accepted_next
        obtain ⟨queued, forwarded_eq, longer⟩ := connected.forwarded_first
          (understood sent List.mem_cons_self) ((next :: others).flatMap Sent.bytes)
        have same := independent [(sent :: next :: others).flatMap Sent.bytes]
          [sent.bytes, (next :: others).flatMap Sent.bytes] (by simp) (by simp)
        rw [connected.forwarded_rejected rejected, forwarded_eq] at same
        obtain rfl := Option.some.inj same
        exact absurd longer (Nat.lt_irrefl _)
  · rintro sent rfl plain first second first_eq second_eq
    have sent_understood := understood sent (by simp)
    have understands : env.expat.Understands sent.document :=
      ⟨sent_understood.reads, plain.reads_bare⟩
    simp only [List.flatMap_cons, List.flatMap_nil, List.append_nil] at first_eq second_eq
    rw [connected.forwarded_plain understands sent_understood.beginning plain.plain first_eq,
      connected.forwarded_plain understands sent_understood.beginning plain.plain second_eq]

/-! ## A server -/

/-- The sample stream with an XML declaration. -/
def declaredStream : Document :=
  { sampleStream with prolog := text "<?xml version='1.0'?>" }

theorem isDeclared_declaredStream : declaredStream.IsDeclared where
  declared := by decide +kernel
  tagged := by decide +kernel

/-- An environment with a parser for the sample stream. -/
def serverEnvironment : Environment :=
  { sessionEnvironment with expat := Expat.reading sampleStream }

/-- An environment with a parser for the sample stream with and without its declaration. -/
def declaredEnvironment : Environment :=
  { sessionEnvironment with expat := isDeclared_declaredStream.parser }

/-- A connection to the XMPP server was established. -/
def connectedConn : Conn :=
  { wsconnCreate serverEnvironment with
    cm := { cmCreate with state := .forward, bev := some { input := [], written := [] } } }

theorem connected_connectedConn : connectedConn.Connected :=
  ⟨rfl, ⟨_, rfl, rfl⟩, rfl⟩

theorem isPlain_declaredStream : declaredStream.IsPlain declaredStream.bytes where
  isStream :=
    { root_name := isStream_sampleStream.root_name
      content_names := isStream_sampleStream.content_names }
  tagged := by decide +kernel
  small := by decide +kernel
  unique := @isRestart_drop_eq_false _ 81 _ (by decide +kernel) (by decide +kernel)

/-- For the sample stream with its declaration the segments do not matter. -/
theorem segmentsDoNotMatter_declaredStream :
    SegmentsDoNotMatter declaredEnvironment connectedConn declaredStream.bytes := by
  have understands := isDeclared_declaredStream.understands_parser
  have understood : Sent.Understood ⟨declaredStream, declaredStream.bytes⟩
      declaredEnvironment.expat :=
    { reads := understands.1
      beginning := List.prefix_rfl
      opened := by decide +kernel
      root_name := isStream_sampleStream.root_name }
  have independent := (segmentsDoNotMatter_single connected_connectedConn
    (List.cons_ne_nil ⟨declaredStream, declaredStream.bytes⟩ []) (by simpa using understood)
    (List.IsChain.singleton _)).2 _ rfl ⟨isPlain_declaredStream, understands.2⟩
  simpa using independent

/-- When a stream is ended and another one follows, it matters whether the second header comes in a
segment of its own. -/
theorem not_segmentsDoNotMatter_restart :
    serverEnvironment.expat.accepts (sampleStream.bytes ++ sampleStream.bytes) = false ∧
      ¬ SegmentsDoNotMatter serverEnvironment connectedConn
        (sampleStream.bytes ++ sampleStream.bytes) := by
  refine ⟨by decide +kernel, fun independent => ?_⟩
  have same := independent [sampleStream.bytes ++ sampleStream.bytes]
    [sampleStream.bytes, sampleStream.bytes] (by simp) (by simp)
  exact absurd same (by decide +kernel)

end Jabsocket
