import Jabsocket.Outline

/-!
# Positions in a long stream

The parser counts bytes with 64 bits and the framer with 32.  Positions are right as long as every
frame begins below `2 ^ 31` and the frames which are taken end there; a frame of an element without
a namespace begins at a wrong position anyway.
-/

namespace Jabsocket

/-! ## Parts and the buffer -/

theorem lastStop_bounds {low : Nat} {spans : List Span} (ordered : Ordered low spans)
    (proper : ∀ span ∈ spans, span.start ≤ span.stop) :
    low ≤ lastStop low spans ∧ ∀ span ∈ spans, span.stop ≤ lastStop low spans := by
  induction spans generalizing low with
  | nil => simp [lastStop]
  | cons span spans ih =>
      obtain ⟨span_proper, later_proper⟩ := List.forall_mem_cons.mp proper
      obtain ⟨behind, later⟩ := ih ordered.2 later_proper
      have low_le := ordered.1
      rw [lastStop]
      exact ⟨by omega, List.forall_mem_cons.mpr ⟨behind, later⟩⟩

/-- All parts end before the position of the cursor. -/
theorem Outline.Fits.stop_le {outline : Outline} {cursor : Cursor} (fits : outline.Fits cursor)
    {part : Part} (member : part ∈ outline.parts) : part.stop ≤ cursor.position := by
  have proper : ∀ span ∈ outline.parts.map Part.span, span.start ≤ span.stop := by
    intro span span_member
    obtain ⟨other, other_member, rfl⟩ := List.mem_map.mp span_member
    exact (fits.recorded other other_member).1
  have bound := (lastStop_bounds fits.ordered proper).2 part.span (List.mem_map_of_mem member)
  exact Nat.le_trans bound fits.behind

/-- A framer which has queued the parts of a stream and has held some bytes of it, from which the
first parts and the first bytes were taken. -/
structure Framer.Charted (expat : Expat) (framer : Framer) (held : List UInt8)
    (drawing : Drawing) (taken waiting : List Part) (offset : Nat) : Prop where
  drawn : Execution.run draw Drawing.initial (expat.report framer.fed) = some drawing
  sound : drawing.Sound
  within : drawing.cursor.position ≤ framer.fed.length
  parts_eq : drawing.outline.parts = taken ++ waiting
  shows : framer.Shows drawing.outline (taken.map Part.queued)
  unlimited : framer.buffer.maxLength = 0
  buffer_eq : framer.buffer.data = held.drop offset
  offset_le : offset ≤ lastStop 0 (taken.map Part.span)

section

variable {expat : Expat} {framer next : Framer} {held chunk : List UInt8} {drawing : Drawing}
  {taken waiting : List Part} {offset : Nat}

theorem charted_framerCreate (expat : Expat) :
    framerCreate.Charted expat [] Drawing.initial [] [] 0 where
  drawn := by
    rw [show framerCreate.fed = [] from rfl, expat.report_nil]
    rfl
  sound := Drawing.sound_initial
  within := Nat.le_refl 0
  parts_eq := rfl
  shows := ⟨rfl, by simp [framerCreate, Drawing.initial, Outline.initial, toInt32], rfl⟩
  unlimited := rfl
  buffer_eq := rfl
  offset_le := Nat.le_refl 0

namespace Framer.Charted

theorem partsOf_eq (charted : framer.Charted expat held drawing taken waiting offset) :
    partsOf (expat.report framer.fed) = taken ++ waiting := by
  rw [partsOf, charted.drawn]
  exact charted.parts_eq

theorem frames_eq (charted : framer.Charted expat held drawing taken waiting offset) :
    framer.frames = waiting.map Part.queued := by
  have queue_eq := charted.shows.frames_eq
  rw [charted.parts_eq, List.map_append] at queue_eq
  exact (List.append_cancel_left queue_eq).symm

/-- When a frame is in the queue, a part is waiting. -/
theorem exists_cons (charted : framer.Charted expat held drawing taken waiting offset)
    {head : QueuedFrame} {frames : List QueuedFrame} (queue : framer.frames = head :: frames) :
    ∃ part later, waiting = part :: later := by
  have queue_eq := charted.frames_eq
  rw [queue] at queue_eq
  obtain ⟨part, later, waiting_eq, -⟩ := List.map_eq_cons_iff.mp queue_eq.symm
  exact ⟨part, later, waiting_eq⟩

theorem mem_parts (charted : framer.Charted expat held drawing taken waiting offset)
    {part : Part} (member : part ∈ waiting) : part ∈ drawing.outline.parts := by
  rw [charted.parts_eq]
  exact List.mem_append_right _ member

/-- The parts in the queue are behind those which were taken. -/
theorem waiting_ordered (charted : framer.Charted expat held drawing taken waiting offset) :
    Ordered (lastStop 0 (taken.map Part.span)) (waiting.map Part.span) := by
  have ordered := charted.sound.fits.ordered
  rw [charted.parts_eq, List.map_append, ordered_append] at ordered
  exact ordered.2

/-- More is fed: the handlers queue the parts which are complete now, and the bytes are held if the
parser accepts them. -/
theorem add (charted : framer.Charted expat held drawing taken waiting offset)
    {chunk : List UInt8} (inOrder : expat.InOrder (framer.fed ++ chunk))
    (covered : offset ≤ held.length) :
    ∃ drawing added,
      partsOf (expat.report (framer.fed ++ chunk)) =
        partsOf (expat.report framer.fed) ++ added ∧
      (framerAdd expat framer chunk).1.fed = framer.fed ++ chunk ∧
      (framerAdd expat framer chunk).1.bufferIndex = framer.bufferIndex ∧
      (framerAdd expat framer chunk).1.Charted expat
        (if expat.accepts (framer.fed ++ chunk) then held ++ chunk else held) drawing taken
        (waiting ++ added) offset := by
  obtain ⟨cursor, followed, within⟩ := inOrder
  obtain ⟨after, drawn, rfl⟩ := @exists_run_draw Drawing.initial _ _ followed
  have whole := drawn
  rw [← report_append_xmlParse] at drawn
  obtain ⟨middle, first, rest⟩ := Execution.run_append.mp drawn
  obtain rfl : drawing = middle := Option.some.inj (charted.drawn.symm.trans first)
  obtain ⟨after_sound, ⟨added, parts_eq⟩, shown⟩ := charted.sound.run rest
  obtain ⟨level_eq, index_eq, frames_eq⟩ := shown framer _ charted.shows
  have itself : framer.Mirrors framer [] := ⟨rfl, rfl, rfl⟩
  have kept := (itself.foldl (xmlParse expat framer.fed chunk)).2
  have unlimited := charted.unlimited
  rw [← kept.buffer_eq] at unlimited
  have waiting_eq : after.outline.parts = taken ++ (waiting ++ added) := by
    rw [← parts_eq, charted.parts_eq, List.append_assoc]
  refine ⟨after, added, ?_, ?_⟩
  · rw [charted.partsOf_eq, ← charted.parts_eq, parts_eq, partsOf, whole]
    rfl
  cases accepted : expat.accepts (framer.fed ++ chunk) with
  | true =>
      simp only [framerAdd, accepted, if_true]
      refine ⟨trivial, kept.bufferIndex_eq, whole, after_sound, within, waiting_eq,
        ⟨level_eq, index_eq, frames_eq⟩, by simpa using unlimited, ?_, charted.offset_le⟩
      dsimp only
      rw [bufferAppend_data_unlimited chunk unlimited, kept.buffer_eq, charted.buffer_eq,
        List.drop_append_of_le_length covered]
  | false =>
      simp only [framerAdd, accepted, Bool.false_eq_true, if_false]
      exact ⟨trivial, kept.bufferIndex_eq, whole, after_sound, within, waiting_eq,
        ⟨level_eq, index_eq, frames_eq⟩, unlimited,
        (congrArg Buffer.data kept.buffer_eq).trans charted.buffer_eq, charted.offset_le⟩

/-- A part in a namespace is recorded where it starts. -/
theorem queued_eq (charted : framer.Charted expat held drawing taken waiting offset)
    {part : Part} (member : part ∈ waiting) (named : isNamespaced part.name = true) :
    part.start ≤ part.stop ∧
      part.queued = { index := toInt32 part.start, size := toInt32 (part.stop - part.start) } := by
  obtain ⟨proper, recorded_eq⟩ := charted.sound.fits.recorded part (charted.mem_parts member)
  rw [if_pos named] at recorded_eq
  rw [Part.queued, recorded_eq]
  exact ⟨proper, rfl⟩

/-- The first part is taken, and with it as many bytes as its size says. -/
theorem take {part : Part}
    (charted : framer.Charted expat held drawing taken (part :: waiting) offset)
    (bufferIndex_eq : framer.bufferIndex = offset) (named : isNamespaced part.name = true)
    (small : part.start < 2 ^ 31) {head : QueuedFrame} {frames : List QueuedFrame}
    (frames_eq : framer.frames = head :: frames) (heap : Heap) (data : Data) {size : Nat}
    (size_eq : toSize (toInt32 (part.stop - part.start)) = size) :
    (framerGetFrame2 heap framer head data).1.fed = framer.fed ∧
      (framerGetFrame2 heap framer head data).1.bufferIndex = toInt32 (part.start + size : Nat) ∧
      (framerGetFrame2 heap framer head data).1.buffer.data = held.drop (part.start + size) ∧
      (part.start + size ≤ part.stop →
        (framerGetFrame2 heap framer head data).1.Charted expat held drawing (taken ++ [part])
          waiting (part.start + size)) := by
  obtain ⟨proper, queued_eq⟩ := charted.queued_eq List.mem_cons_self named
  have queue_eq := charted.frames_eq
  rw [frames_eq, List.map_cons, queued_eq, toInt32_natCast small] at queue_eq
  obtain ⟨rfl, rfl⟩ := List.cons.inj queue_eq
  have behind : offset ≤ part.start := Nat.le_trans charted.offset_le charted.waiting_ordered.1
  obtain ⟨buffer, dropped, unlimited, data_eq⟩ := framerDrop_skipTo_eq charted.unlimited
    charted.buffer_eq bufferIndex_eq behind small size
  simp only [framerGetFrame2, size_eq, dropped]
  refine ⟨trivial, trivial, data_eq, fun ends => ?_⟩
  exact
    { drawn := charted.drawn
      sound := charted.sound
      within := charted.within
      parts_eq := by rw [charted.parts_eq, List.append_assoc]; rfl
      shows := ⟨charted.shows.level_eq, charted.shows.index_eq, by
        rw [charted.parts_eq]
        simp [frames_eq]⟩
      unlimited
      buffer_eq := data_eq
      offset_le := by
        rw [List.map_append, lastStop_append]
        exact ends }

end Framer.Charted

end

/-! ## Positions -/

/-- Position of the first byte in the buffer. -/
def Framer.offset (framer : Framer) : Nat := framer.fed.length - framer.buffer.length

/-- The parts whose frames are in the queue. -/
def Framer.waiting (expat : Expat) (framer : Framer) : List Part :=
  let parts := partsOf (expat.report framer.fed)
  parts.drop (parts.length - framer.frames.length)

/-- The positions of the buffer and of the queued frames are right, and what is dropped in front of
the first frame is what lies there. -/
structure Framer.Located (expat : Expat) (framer : Framer) : Prop where
  isSuffix : framer.buffer.data <:+ framer.fed
  bufferIndex_eq : framer.bufferIndex = framer.offset
  frames_eq : framer.frames.map QueuedFrame.index =
    (framer.waiting expat).map fun part => (part.start : Int)
  skips : ∀ head ∈ framer.frames.head?, ∀ part ∈ (framer.waiting expat).head?,
    framer.offset + skippedBefore framer head.index = part.start

/-- The parts which are completed by a chunk. -/
def newParts (expat : Expat) (fed chunk : List UInt8) : List Part :=
  (partsOf (expat.report (fed ++ chunk))).drop (partsOf (expat.report fed)).length

/-- The parts which are completed start below `2 ^ 31` and are in namespaces.  The part which is
taken ends there, if the number of its bytes is not above `2 ^ 32`. -/
def EndsEarly (expat : Expat) (framer : Framer) : FramerUse → Prop
  | .add chunk =>
      ∀ part ∈ newParts expat framer.fed chunk,
        isNamespaced part.name = true ∧ part.start < 2 ^ 31
  | .take _ =>
      ∀ part ∈ (framer.waiting expat).head?,
        part.start + (part.stop - part.start) % 2 ^ 32 < 2 ^ 31

instance decidableEndsEarly (expat : Expat) (framer : Framer) (use : FramerUse) :
    Decidable (EndsEarly expat framer use) :=
  match use with
  | .add chunk =>
      inferInstanceAs (Decidable (∀ part ∈ newParts expat framer.fed chunk,
        isNamespaced part.name = true ∧ part.start < 2 ^ 31))
  | .take _ =>
      decidable_of_iff (∀ part ∈ (framer.waiting expat).head?.toList,
        part.start + (part.stop - part.start) % 2 ^ 32 < 2 ^ 31) (by simp [EndsEarly])

theorem toInt32_bounds (value : Int) : -2 ^ 31 ≤ toInt32 value ∧ toInt32 value < 2 ^ 31 :=
  ⟨Int.le_bmod (by decide), Int.bmod_lt (by decide)⟩

/-- A position is kept exactly when it is below `2 ^ 31`. -/
theorem toInt32_eq_natCast_iff {recorded start : Nat} (recorded_le : recorded ≤ start) :
    toInt32 recorded = start ↔ recorded = start ∧ start < 2 ^ 31 := by
  constructor
  · intro kept
    have small : start < 2 ^ 31 := by
      have := (toInt32_bounds recorded).2
      omega
    rw [toInt32_natCast (by omega)] at kept
    exact ⟨Int.ofNat_inj.mp kept, small⟩
  · rintro ⟨rfl, small⟩
    exact toInt32_natCast small

/-- The size of a frame as it is used by `framer_get_frame2`. -/
theorem toSize_toInt32 (value : Nat) :
    toSize (toInt32 value) =
      if value % 2 ^ 32 < 2 ^ 31 then value % 2 ^ 32 else 2 ^ 64 - 2 ^ 32 + value % 2 ^ 32 := by
  rw [toInt32, Int.bmod_def, toSize]
  split_ifs <;> omega

section

variable {expat : Expat} {framer : Framer} {drawing : Drawing} {taken waiting : List Part}
  {offset : Nat}

namespace Framer.Charted

theorem waiting_eq {held : List UInt8}
    (charted : framer.Charted expat held drawing taken waiting offset) :
    framer.waiting expat = waiting := by
  rw [Framer.waiting, charted.partsOf_eq, charted.frames_eq]
  simp

theorem recorded_iff {held : List UInt8}
    (charted : framer.Charted expat held drawing taken waiting offset) {part : Part}
    (member : part ∈ waiting) :
    part.queued.index = part.start ↔ isNamespaced part.name = true ∧ part.start < 2 ^ 31 := by
  simp only [Part.queued]
  obtain ⟨-, recorded⟩ := charted.sound.fits.recorded part (charted.mem_parts member)
  split_ifs at recorded with named
  · rw [toInt32_eq_natCast_iff (Nat.le_of_eq recorded)]
    simp [recorded, named]
  · rw [toInt32_eq_natCast_iff (Nat.le_of_lt recorded)]
    simp [named, Nat.ne_of_lt recorded]

theorem offset_le_length {held : List UInt8}
    (charted : framer.Charted expat held drawing taken waiting offset) :
    offset ≤ framer.fed.length := by
  have proper : ∀ span ∈ waiting.map Part.span, span.start ≤ span.stop := by
    intro span member
    obtain ⟨part, part_member, rfl⟩ := List.mem_map.mp member
    exact (charted.sound.fits.recorded part (charted.mem_parts part_member)).1
  have last_le := (lastStop_bounds charted.waiting_ordered proper).1
  have behind := charted.sound.fits.behind
  rw [Outline.last, charted.parts_eq, List.map_append, lastStop_append] at behind
  exact charted.offset_le.trans (last_le.trans (behind.trans charted.within))

theorem offset_eq (charted : framer.Charted expat framer.fed drawing taken waiting offset) :
    framer.offset = offset := by
  have bound := charted.offset_le_length
  rw [Framer.offset, Buffer.length, charted.buffer_eq, List.length_drop]
  omega

/-- The positions are right exactly when all waiting parts are in namespaces and start below
`2 ^ 31`. -/
theorem located_iff (charted : framer.Charted expat framer.fed drawing taken waiting offset)
    (bufferIndex_eq : framer.bufferIndex = offset) :
    framer.Located expat ↔
      ∀ part ∈ waiting, isNamespaced part.name = true ∧ part.start < 2 ^ 31 := by
  constructor
  · intro located part member
    have starts_eq := located.frames_eq
    rw [charted.waiting_eq, charted.frames_eq, List.map_map, List.map_inj_left] at starts_eq
    have start_eq := starts_eq part member
    rw [Function.comp_apply] at start_eq
    exact (charted.recorded_iff member).mp start_eq
  · intro early
    have starts_eq : ∀ part ∈ waiting, part.queued.index = part.start :=
      fun part member => (charted.recorded_iff member).mpr (early part member)
    refine ⟨?_, bufferIndex_eq.trans (congrArg Nat.cast charted.offset_eq.symm), ?_, ?_⟩
    · rw [charted.buffer_eq]
      exact List.drop_suffix _ _
    · rw [charted.waiting_eq, charted.frames_eq, List.map_map]
      refine List.map_congr_left fun part member => ?_
      rw [Function.comp_apply, starts_eq part member]
    · rw [charted.waiting_eq, charted.frames_eq, charted.offset_eq]
      intro head first part part_first
      cases waiting with
      | nil => cases part_first
      | cons other waiting =>
          obtain rfl : other = part := by simpa using part_first
          obtain rfl : other.queued = head := by simpa using first
          have start_eq := starts_eq other List.mem_cons_self
          have small := (early other List.mem_cons_self).2
          have behind : offset ≤ other.start :=
            Nat.le_trans charted.offset_le charted.waiting_ordered.1
          rw [start_eq, skippedBefore_eq bufferIndex_eq small]
          omega

end Framer.Charted

/-- The positions are right, with the parts which were taken. -/
def Framer.Sited (expat : Expat) (framer : Framer) : Prop :=
  ∃ drawing taken waiting offset,
    framer.Charted expat framer.fed drawing taken waiting offset ∧
      framer.bufferIndex = (offset : Nat) ∧
      ∀ part ∈ waiting, isNamespaced part.name = true ∧ part.start < 2 ^ 31

theorem Framer.Sited.located (sited : framer.Sited expat) : framer.Located expat := by
  obtain ⟨drawing, taken, waiting, offset, charted, bufferIndex_eq, early⟩ := sited
  exact (charted.located_iff bufferIndex_eq).mpr early

theorem sited_framerCreate (expat : Expat) : framerCreate.Sited expat :=
  ⟨Drawing.initial, [], [], 0, charted_framerCreate expat, rfl, by simp⟩

/-- More is fed. -/
theorem Framer.Sited.add (sited : framer.Sited expat) {chunk : List UInt8}
    (inOrder : expat.InOrder (framer.fed ++ chunk))
    (accepted : expat.accepts (framer.fed ++ chunk) = true) :
    (EndsEarly expat framer (.add chunk) → (framerAdd expat framer chunk).1.Sited expat) ∧
      ((framerAdd expat framer chunk).1.Located expat → EndsEarly expat framer (.add chunk)) := by
  obtain ⟨drawing, taken, waiting, offset, charted, bufferIndex_eq, early⟩ := sited
  obtain ⟨after, added, parts_eq, fed_eq, kept, charted'⟩ :=
    charted.add inOrder charted.offset_le_length
  rw [if_pos accepted, ← fed_eq] at charted'
  rw [bufferIndex_eq] at kept
  have early_iff : EndsEarly expat framer (.add chunk) ↔
      ∀ part ∈ waiting ++ added, isNamespaced part.name = true ∧ part.start < 2 ^ 31 := by
    rw [EndsEarly, newParts, parts_eq, List.drop_left, List.forall_mem_append]
    exact ⟨fun new => ⟨early, new⟩, fun all => all.2⟩
  refine ⟨fun guarded => ?_, fun located => ?_⟩
  · exact ⟨after, taken, waiting ++ added, offset, charted', kept, early_iff.mp guarded⟩
  · exact early_iff.mpr ((charted'.located_iff kept).mp located)

/-- The first frame is taken. -/
theorem Framer.Sited.take (sited : framer.Sited expat) {head : QueuedFrame}
    {frames : List QueuedFrame} (frames_eq : framer.frames = head :: frames) (heap : Heap)
    (data : Data) :
    (EndsEarly expat framer (.take data) →
        (framerGetFrame2 heap framer head data).1.Sited expat) ∧
      ((framerGetFrame2 heap framer head data).1.Located expat →
        EndsEarly expat framer (.take data)) := by
  obtain ⟨drawing, taken, waiting, offset, charted, bufferIndex_eq, early⟩ := sited
  obtain ⟨part, later, rfl⟩ := charted.exists_cons frames_eq
  obtain ⟨named, small⟩ := early part List.mem_cons_self
  have proper := (charted.queued_eq List.mem_cons_self named).1
  have stop_le : part.stop ≤ framer.fed.length :=
    (charted.sound.fits.stop_le (charted.mem_parts List.mem_cons_self)).trans charted.within
  have size_eq : (part.stop : Int) - part.start = (part.stop - part.start : Nat) := by omega
  have guard_iff : EndsEarly expat framer (.take data) ↔
      part.start + (part.stop - part.start) % 2 ^ 32 < 2 ^ 31 := by
    simp [EndsEarly, charted.waiting_eq]
  obtain ⟨fed_eq, next_eq, data_eq, charted'⟩ := charted.take bufferIndex_eq named small
    frames_eq heap data rfl
  rw [size_eq, toSize_toInt32] at next_eq data_eq charted'
  rw [guard_iff]
  refine ⟨fun guarded => ?_, fun located => ?_⟩
  · rw [if_pos (by omega)] at next_eq charted'
    rw [toInt32_natCast guarded] at next_eq
    have within := Nat.mod_le (part.stop - part.start) (2 ^ 32)
    refine ⟨drawing, taken ++ [part], later, _, ?_, next_eq,
      fun other member => early other (List.mem_cons_of_mem _ member)⟩
    rw [fed_eq]
    exact charted' (by omega)
  · have position_eq := located.bufferIndex_eq
    have bound := (toInt32_bounds (part.start +
      (if (part.stop - part.start) % 2 ^ 32 < 2 ^ 31 then (part.stop - part.start) % 2 ^ 32
        else 2 ^ 64 - 2 ^ 32 + (part.stop - part.start) % 2 ^ 32) : Nat)).2
    rw [next_eq, Framer.offset, fed_eq, Buffer.length, data_eq, List.length_drop] at position_eq
    rw [position_eq] at bound
    have within := Nat.mod_le (part.stop - part.start) (2 ^ 32)
    split_ifs at bound <;> omega

end

theorem feeds_framerUse {expat : Expat} {heap : Heap} (framer : Framer) (use : FramerUse)
    (next : Framer) (used : framerUse expat heap framer use = some next) :
    next.fed = framer.fed ++ usedBytes [use] := by
  obtain ⟨chunk, rfl, -, rfl⟩ | ⟨data, head, frames, rfl, -, rfl⟩ := framerUse_cases used
  · rw [fed_framerAdd]
    simp [usedBytes]
  · rw [fed_framerGetFrame2]
    simp [usedBytes]

/-- In every run of a framer on a stream of any length, the positions are right throughout exactly
when the parts which are completed are in namespaces and start below `2 ^ 31`, and the parts which
are taken end there. -/
theorem offsets_located_iff {expat : Expat} {heap : Heap} {uses : List FramerUse}
    {final : Framer} (nests : expat.Nests (usedBytes uses))
    (execution : Execution.run (framerUse expat heap) framerCreate uses = some final) :
    Execution.Always (framerUse expat heap) (Framer.Located expat) framerCreate uses ↔
      Execution.Guarded (framerUse expat heap) (EndsEarly expat) framerCreate uses := by
  refine Execution.always_iff_guarded_of_assumed ?_ ?_ (sited_framerCreate expat)
    (sited_framerCreate expat).located execution (guarded_readsInOrder feeds_framerUse nests)
  · intro framer use next sited inOrder guarded used
    have kept : next.Sited expat := by
      obtain ⟨chunk, rfl, accepted, rfl⟩ | ⟨data, head, frames, rfl, frames_eq, rfl⟩ :=
        framerUse_cases used
      · exact (sited.add inOrder accepted).1 guarded
      · exact (sited.take frames_eq heap data).1 guarded
    exact ⟨kept, kept.located⟩
  · intro framer use next sited inOrder used located
    obtain ⟨chunk, rfl, accepted, rfl⟩ | ⟨data, head, frames, rfl, frames_eq, rfl⟩ :=
      framerUse_cases used
    · exact (sited.add inOrder accepted).2 located
    · exact (sited.take frames_eq heap data).2 located

theorem offsets_located_namespacedChild :
    Execution.Always (framerUse (Expat.reading (oneChild namespacedChild)) fun _ _ => 0)
      (Framer.Located (Expat.reading (oneChild namespacedChild))) framerCreate
      (childUses namespacedChild) := by
  obtain ⟨final, execution⟩ : ∃ final, Execution.run
      (framerUse (Expat.reading (oneChild namespacedChild)) fun _ _ => 0) framerCreate
      (childUses namespacedChild) = some final :=
    Option.isSome_iff_exists.mp (by decide +kernel)
  have nests : (Expat.reading (oneChild namespacedChild)).Nests
      (usedBytes (childUses namespacedChild)) :=
    (oneChild namespacedChild).nests_reading (by decide +kernel) ⟨by decide +kernel, trivial⟩ _
  exact (offsets_located_iff nests execution).mpr (by decide +kernel)

/-- A stream with spaces before its only child. -/
def paddedStream (count : Nat) : Document :=
  { sampleStream with content := .other (List.replicate count 0x20) (.empty namespacedChild .nil) }

theorem nests_paddedStream (count : Nat) (stream : List UInt8) :
    (Expat.reading (paddedStream count)).Nests stream :=
  (paddedStream count).nests_reading
    (show sampleStream.root.bytes ≠ [] by decide +kernel)
    ⟨show namespacedChild.bytes ≠ [] by decide +kernel, trivial⟩ stream

theorem report_paddedStream (count : Nat) :
    (Expat.reading (paddedStream count)).accepts (paddedStream count).bytes = true ∧
      (Expat.reading (paddedStream count)).report (paddedStream count).bytes =
        [.start sampleStream.root.name [] 0 32, .start namespacedChild.name [] (32 + count) 11,
          .stop namespacedChild.name (32 + count + 11) 0,
          .stop sampleStream.root.name (32 + count + 11) 16] := by
  have root_length : sampleStream.root.bytes.length = 32 := by decide +kernel
  have child_length : namespacedChild.bytes.length = 11 := by decide +kernel
  have end_length : sampleStream.endTag.length = 16 := by decide +kernel
  have inner_eq : (paddedStream count).inner = 32 := by
    rw [Document.inner, show (paddedStream count).root = sampleStream.root from rfl, root_length]
    rfl
  have content_length : (paddedStream count).content.bytes.length = count + 11 := by
    simp [paddedStream, Content.bytes, child_length]
  have marks_eq : (paddedStream count).marks =
      [(32, .start sampleStream.root.name [] 0 32),
        (32 + count + 11, .start namespacedChild.name [] (32 + count) 11),
        (32 + count + 11, .stop namespacedChild.name (32 + count + 11) 0),
        (32 + count + 11 + 16, .stop sampleStream.root.name (32 + count + 11) 16)] := by
    rw [Document.marks, Document.outer, inner_eq, content_length]
    simp [paddedStream, Content.marks, child_length, end_length, root_length, Nat.add_assoc,
      show sampleStream.prolog = [] from rfl, show sampleStream.root.attr = [] from rfl,
      show namespacedChild.attr = [] from rfl]
  have length_eq : (paddedStream count).bytes.length = 32 + count + 11 + 16 := by
    simp only [Document.bytes, List.length_append, content_length]
    simp only [paddedStream, root_length, end_length, show sampleStream.prolog = [] from rfl,
      show sampleStream.epilog = [] from rfl, List.length_nil]
    omega
  have reads := (paddedStream count).reads_reading (by rw [inner_eq]; decide)
  obtain ⟨accepted, report_eq⟩ := reads _ List.prefix_rfl
  refine ⟨accepted, ?_⟩
  rw [report_eq, marks_eq, length_eq, List.filter_eq_self.mpr]
  · rfl
  · intro mark member
    simp only [List.mem_cons, List.not_mem_nil, or_false] at member
    rcases member with rfl | rfl | rfl | rfl
    all_goals
      simp only [decide_eq_true_eq]
      omega

/-- The chunks of an accepted stream are added one after the other. -/
theorem exists_run_adds {expat : Expat} (heap : Heap) {framer : Framer}
    (mirrors : ((expat.report framer.fed).foldl framerHandle framerCreate).Mirrors framer [])
    (chunks : List (List UInt8)) (accepted : expat.accepts (framer.fed ++ chunks.flatten) = true) :
    ∃ final, Execution.run (framerUse expat heap) framer (chunks.map .add) = some final ∧
      final.frames = ((expat.report (framer.fed ++ chunks.flatten)).foldl framerHandle
        framerCreate).frames := by
  induction chunks generalizing framer with
  | nil => exact ⟨framer, rfl, by simpa using mirrors.frames_eq.symm⟩
  | cons chunk chunks ih =>
      rw [List.flatten_cons, ← List.append_assoc] at accepted ⊢
      have chunk_accepted := expat.accepts_of_append _ _ accepted
      have added : framerUse expat heap framer (.add chunk) =
          some (framerAdd expat framer chunk).1 := by
        simp [framerUse, framerAdd, chunk_accepted]
      have fed_eq := fed_framerAdd expat framer chunk
      have handled := (mirrors.foldl (xmlParse expat framer.fed chunk)).1
      rw [← List.foldl_append, report_append_xmlParse, ← fed_eq] at handled
      have next_mirrors : ((expat.report (framerAdd expat framer chunk).1.fed).foldl framerHandle
          framerCreate).Mirrors (framerAdd expat framer chunk).1 [] := by
        simp only [framerAdd, chunk_accepted, if_true] at handled ⊢
        exact ⟨handled.level_eq, handled.index_eq, handled.frames_eq⟩
      rw [← fed_eq] at accepted ⊢
      obtain ⟨final, execution, frames_eq⟩ := ih next_mirrors accepted
      exact ⟨final, Execution.run_cons.mpr ⟨_, added, execution⟩, frames_eq⟩

/-- The start tag, the spaces in some chunks of the same size, and the rest. -/
def paddedChunks (count size : Nat) : List (List UInt8) :=
  sampleStream.root.bytes ::
    (List.replicate count (List.replicate size 0x20) ++
      [namespacedChild.bytes ++ sampleStream.endTag])

theorem flatten_paddedChunks (count size : Nat) :
    (paddedChunks count size).flatten = (paddedStream (count * size)).bytes := by
  simp [paddedChunks, paddedStream, Document.bytes, Content.bytes,
    List.flatten_replicate_replicate, show sampleStream.prolog = [] from rfl,
    show sampleStream.epilog = [] from rfl]

/-- Behind `2 ^ 31` spaces, which come in chunks of 4096 bytes, the frame of the child and that of
the end tag begin at positions which the framer takes for negative. -/
theorem offsets_not_located_padded :
    (Expat.reading (paddedStream (2 ^ 31))).Nests
        (usedBytes ((paddedChunks (2 ^ 19) 4096).map .add)) ∧
      ∃ final, Execution.run (framerUse (Expat.reading (paddedStream (2 ^ 31))) fun _ _ => 0)
          framerCreate ((paddedChunks (2 ^ 19) 4096).map .add) = some final ∧
        final.frames = [⟨0, 32⟩, ⟨-2147483616, 11⟩, ⟨-2147483605, 16⟩] ∧
        ¬ Execution.Always (framerUse (Expat.reading (paddedStream (2 ^ 31))) fun _ _ => 0)
          (Framer.Located (Expat.reading (paddedStream (2 ^ 31)))) framerCreate
          ((paddedChunks (2 ^ 19) 4096).map .add) := by
  refine ⟨nests_paddedStream _ _, ?_⟩
  obtain ⟨accepted, report_eq⟩ := report_paddedStream (2 ^ 31)
  have bytes_eq : framerCreate.fed ++ (paddedChunks (2 ^ 19) 4096).flatten =
      (paddedStream (2 ^ 31)).bytes := by
    rw [flatten_paddedChunks, show 2 ^ 19 * 4096 = 2 ^ 31 by decide]
    rfl
  rw [← bytes_eq] at accepted report_eq
  generalize Expat.reading (paddedStream (2 ^ 31)) = expat at accepted report_eq ⊢
  generalize paddedChunks (2 ^ 19) 4096 = chunks at accepted report_eq ⊢
  have mirrors : ((expat.report framerCreate.fed).foldl framerHandle framerCreate).Mirrors
      framerCreate [] := by
    rw [show framerCreate.fed = [] from rfl, expat.report_nil]
    exact ⟨rfl, rfl, rfl⟩
  obtain ⟨final, execution, frames_eq⟩ := exists_run_adds (fun _ _ => 0) mirrors chunks accepted
  have wrapped : final.frames = [⟨0, 32⟩, ⟨-2147483616, 11⟩, ⟨-2147483605, 16⟩] := by
    rw [frames_eq, report_eq]
    decide +kernel
  refine ⟨final, execution, wrapped, fun always => ?_⟩
  have starts_eq := (always _ [] final (by simp) execution).frames_eq
  have member : (-2147483616 : Int) ∈ final.frames.map QueuedFrame.index := by simp [wrapped]
  rw [starts_eq] at member
  obtain ⟨part, -, start_eq⟩ := List.mem_map.mp member
  omega

end Jabsocket
