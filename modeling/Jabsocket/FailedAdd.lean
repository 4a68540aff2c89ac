import Jabsocket.Offsets

/-!
# Failed calls of `framer_add`

The handlers queue frames while the parser reads a chunk, and the chunk is appended to the buffer
only when the parser has accepted all of it.  The parts which are complete before an error are in
the queue, and their bytes are not in the buffer.
-/

namespace Jabsocket

/-- One call, whether `framer_add` succeeds or not.  Frames are taken only when there is one. -/
def framerTry (expat : Expat) (heap : Heap) (framer : Framer) : FramerUse → Option Framer
  | .add chunk => some (framerAdd expat framer chunk).1
  | .take data =>
      match framer.frames with
      | [] => none
      | head :: _ => some (framerGetFrame2 heap framer head data).1

/-- What a call does. -/
theorem framerTry_cases {expat : Expat} {heap : Heap} {framer next : Framer} {use : FramerUse}
    (tried : framerTry expat heap framer use = some next) :
    (∃ chunk, use = .add chunk ∧ next = (framerAdd expat framer chunk).1) ∨
      ∃ data head frames, use = .take data ∧ framer.frames = head :: frames ∧
        next = (framerGetFrame2 heap framer head data).1 := by
  cases use with
  | add chunk => exact Or.inl ⟨chunk, rfl, (Option.some.inj tried).symm⟩
  | take data =>
      cases frames_eq : framer.frames with
      | nil => simp [framerTry, frames_eq] at tried
      | cons head frames =>
          refine Or.inr ⟨data, head, frames, rfl, rfl, ?_⟩
          simpa [framerTry, frames_eq, eq_comm] using tried

theorem feeds_framerTry {expat : Expat} {heap : Heap} (framer : Framer) (use : FramerUse)
    (next : Framer) (tried : framerTry expat heap framer use = some next) :
    next.fed = framer.fed ++ usedBytes [use] := by
  obtain ⟨chunk, rfl, rfl⟩ | ⟨data, head, frames, rfl, -, rfl⟩ := framerTry_cases tried
  · rw [fed_framerAdd]
    simp [usedBytes]
  · rw [fed_framerGetFrame2]
    simp [usedBytes]

/-- The queued frames lie in the buffer, and the next one consists of received bytes only. -/
structure Framer.Safe (framer : Framer) : Prop where
  inBounds : framer.InBounds
  received : ∀ head ∈ framer.frames.head?, ∀ heap,
    (framerGetFrame heap framer head).2 <:+: framer.fed
  received2 : ∀ head ∈ framer.frames.head?, ∀ heap data,
    (framerGetFrame2 heap framer head data).2.1.buffer <:+: framer.fed

/-- The parts which are completed are in namespaces and end below `2 ^ 31`. -/
def Plain (expat : Expat) (framer : Framer) : FramerUse → Prop
  | .add chunk =>
      ∀ part ∈ newParts expat framer.fed chunk, isNamespaced part.name = true ∧ part.stop < 2 ^ 31
  | .take _ => True

/-- The parts which are completed by a chunk with an error end in the buffer. -/
def FailsEarly (expat : Expat) (framer : Framer) : FramerUse → Prop
  | .add chunk =>
      expat.accepts (framer.fed ++ chunk) = false →
        ∀ part ∈ newParts expat framer.fed chunk,
          (part.stop : Int) ≤ framer.bufferIndex + framer.buffer.length
  | .take _ => True

instance decidablePlain (expat : Expat) (framer : Framer) (use : FramerUse) :
    Decidable (Plain expat framer use) :=
  match use with
  | .add chunk =>
      inferInstanceAs (Decidable (∀ part ∈ newParts expat framer.fed chunk,
        isNamespaced part.name = true ∧ part.stop < 2 ^ 31))
  | .take _ => isTrue trivial

instance decidableFailsEarly (expat : Expat) (framer : Framer) (use : FramerUse) :
    Decidable (FailsEarly expat framer use) :=
  match use with
  | .add chunk =>
      inferInstanceAs (Decidable (expat.accepts (framer.fed ++ chunk) = false →
        ∀ part ∈ newParts expat framer.fed chunk,
          (part.stop : Int) ≤ framer.bufferIndex + framer.buffer.length))
  | .take _ => isTrue trivial

/-- The waiting parts lie in the bytes which were accepted. -/
structure Framer.Sheltered (expat : Expat) (framer : Framer) (held : List UInt8)
    (waiting : List Part) (offset : Nat) : Prop where
  charted : ∃ drawing taken, framer.Charted expat held drawing taken waiting offset
  bufferIndex_eq : framer.bufferIndex = offset
  isPrefix : held <+: framer.fed
  accepted : expat.accepts framer.fed = true → held = framer.fed
  offset_le : offset ≤ held.length
  plain : ∀ part ∈ waiting,
    isNamespaced part.name = true ∧ part.stop < 2 ^ 31 ∧ part.stop ≤ held.length

section

variable {expat : Expat} {framer : Framer} {held : List UInt8} {waiting : List Part}
  {offset : Nat}

/-- The frame of a part which ends below `2 ^ 31`. -/
theorem Framer.Charted.queued_span {drawing : Drawing} {taken : List Part}
    (charted : framer.Charted expat held drawing taken waiting offset) {part : Part}
    (member : part ∈ waiting) (named : isNamespaced part.name = true)
    (small : part.stop < 2 ^ 31) : part.queued = part.span.queued := by
  obtain ⟨proper, queued_eq⟩ := charted.queued_eq member named
  have size_eq : (part.stop : Int) - part.start = (part.stop - part.start : Nat) := by omega
  rw [queued_eq, size_eq, toInt32_natCast (by omega), toInt32_natCast (by omega)]
  rfl

theorem sheltered_framerCreate (expat : Expat) : framerCreate.Sheltered expat [] [] 0 where
  charted := ⟨Drawing.initial, [], charted_framerCreate expat⟩
  bufferIndex_eq := rfl
  isPrefix := List.prefix_rfl
  accepted := fun _ => rfl
  offset_le := Nat.le_refl 0
  plain := by simp

namespace Framer.Sheltered

theorem length_eq (sheltered : framer.Sheltered expat held waiting offset) :
    offset + framer.buffer.length = held.length := by
  obtain ⟨drawing, taken, charted⟩ := sheltered.charted
  have covered := sheltered.offset_le
  rw [Buffer.length, charted.buffer_eq, List.length_drop]
  omega

/-- The waiting parts lie one behind the other, behind the bytes which were taken. -/
theorem ordered (sheltered : framer.Sheltered expat held waiting offset) :
    (∀ part ∈ waiting, part.start ≤ part.stop ∧ offset ≤ part.start) ∧
      (waiting.map Part.span).Pairwise fun first second => first.stop ≤ second.start := by
  obtain ⟨drawing, taken, charted⟩ := sheltered.charted
  have proper : ∀ part ∈ waiting, part.start ≤ part.stop := fun part member =>
    (charted.sound.fits.recorded part (charted.mem_parts member)).1
  have spans_proper : ∀ span ∈ waiting.map Part.span, span.start ≤ span.stop :=
    List.forall_mem_map.mpr proper
  obtain ⟨behind, later⟩ := (ordered_iff spans_proper).mp charted.waiting_ordered
  refine ⟨fun part member => ⟨proper part member, ?_⟩, later⟩
  exact charted.offset_le.trans (behind part.span (List.mem_map_of_mem member))

/-- The frames of the waiting parts have their positions. -/
theorem frames_eq (sheltered : framer.Sheltered expat held waiting offset) :
    framer.frames = (waiting.map Part.span).map Span.queued := by
  obtain ⟨drawing, taken, charted⟩ := sheltered.charted
  rw [charted.frames_eq, List.map_map]
  refine List.map_congr_left fun part member => ?_
  obtain ⟨named, small, -⟩ := sheltered.plain part member
  rw [Function.comp_apply, charted.queued_span member named small]

theorem inBounds (sheltered : framer.Sheltered expat held waiting offset) : framer.InBounds := by
  obtain ⟨drawing, taken, charted⟩ := sheltered.charted
  obtain ⟨proper, later⟩ := sheltered.ordered
  rw [inBounds_iff_spans charted.unlimited charted.buffer_eq sheltered.bufferIndex_eq
    sheltered.offset_le sheltered.frames_eq, List.forall_mem_map]
  · exact ⟨fun part member => ⟨(proper part member).2, (sheltered.plain part member).2.2⟩, later⟩
  · exact List.forall_mem_map.mpr fun part member =>
      ⟨(proper part member).1, (sheltered.plain part member).2.1⟩

/-- The next frame is read from the bytes which were accepted. -/
theorem received (sheltered : framer.Sheltered expat held waiting offset) {head : QueuedFrame}
    (first : head ∈ framer.frames.head?) (heap : Heap) :
    readBytes heap (framerSkipTo framer head.index).buffer.data 0 (toSize head.size) <:+:
      framer.fed := by
  obtain ⟨drawing, taken, charted⟩ := sheltered.charted
  rw [sheltered.frames_eq] at first
  cases waiting with
  | nil => cases first
  | cons part waiting =>
      obtain rfl : part.span.queued = head := by simpa using first
      obtain ⟨named, small, ends⟩ := sheltered.plain part List.mem_cons_self
      obtain ⟨proper, behind⟩ := sheltered.ordered.1 part List.mem_cons_self
      have index_eq : part.span.queued.index = part.start := rfl
      have size_eq : part.span.queued.size = (part.stop - part.start : Nat) := rfl
      obtain ⟨buffer, skipped, -, data_eq⟩ := framerSkipTo_eq charted.unlimited
        charted.buffer_eq sheltered.bufferIndex_eq behind (by omega)
      rw [index_eq, skipped, size_eq, toSize_natCast (by omega), data_eq, readBytes_of_le]
      · rw [List.drop_zero]
        exact ((List.take_prefix _ _).isInfix.trans (List.drop_suffix _ _).isInfix).trans
          sheltered.isPrefix.isInfix
      · rw [List.length_drop]
        omega

theorem safe (sheltered : framer.Sheltered expat held waiting offset) : framer.Safe where
  inBounds := sheltered.inBounds
  received := fun _ first heap => sheltered.received first heap
  received2 := fun _ first heap _ =>
    (List.take_prefix _ _).isInfix.trans (sheltered.received first heap)

/-- A chunk is added, with an error or not. -/
theorem add (sheltered : framer.Sheltered expat held waiting offset) {chunk : List UInt8}
    (inOrder : expat.InOrder (framer.fed ++ chunk)) (plain : Plain expat framer (.add chunk)) :
    (FailsEarly expat framer (.add chunk) → ∃ held waiting offset,
        (framerAdd expat framer chunk).1.Sheltered expat held waiting offset) ∧
      ((framerAdd expat framer chunk).1.InBounds → FailsEarly expat framer (.add chunk)) := by
  obtain ⟨drawing, taken, charted⟩ := sheltered.charted
  have offset_le := sheltered.offset_le
  have length_eq := sheltered.length_eq
  have bufferIndex_eq := sheltered.bufferIndex_eq
  obtain ⟨after, added, parts_eq, fed_eq, kept, charted'⟩ := charted.add inOrder offset_le
  have new_eq : newParts expat framer.fed chunk = added := by
    rw [newParts, parts_eq, List.drop_left]
  have new_plain : ∀ part ∈ added, isNamespaced part.name = true ∧ part.stop < 2 ^ 31 := by
    rw [← new_eq]
    exact plain
  cases accepted : expat.accepts (framer.fed ++ chunk) with
  | true =>
      obtain rfl := sheltered.accepted (expat.accepts_of_append _ _ accepted)
      rw [if_pos accepted] at charted'
      refine ⟨fun _ => ⟨framer.fed ++ chunk, waiting ++ added, offset, ?_⟩, fun _ failed => ?_⟩
      · refine ⟨⟨after, taken, charted'⟩, kept.trans bufferIndex_eq, fed_eq ▸ List.prefix_rfl,
          fun _ => fed_eq.symm, by rw [List.length_append]; omega, fun part member => ?_⟩
        have within := (charted'.sound.fits.stop_le (charted'.mem_parts member)).trans
          charted'.within
        rw [fed_eq] at within
        rcases List.mem_append.mp member with earlier | new
        · obtain ⟨named, small, -⟩ := sheltered.plain part earlier
          exact ⟨named, small, within⟩
        · obtain ⟨named, small⟩ := new_plain part new
          exact ⟨named, small, within⟩
      · rw [accepted] at failed
        cases failed
  | false =>
      rw [accepted, if_neg Bool.false_ne_true] at charted'
      refine ⟨fun early => ⟨held, waiting ++ added, offset, ?_⟩, fun inBounds _ part member => ?_⟩
      · refine ⟨⟨after, taken, charted'⟩, kept.trans bufferIndex_eq,
          fed_eq ▸ sheltered.isPrefix.trans (List.prefix_append _ _), fun other => ?_, offset_le,
          fun part member => ?_⟩
        · rw [fed_eq, accepted] at other
          cases other
        · rcases List.mem_append.mp member with earlier | new
          · exact sheltered.plain part earlier
          · obtain ⟨named, small⟩ := new_plain part new
            have ends := early accepted part (new_eq ▸ new)
            exact ⟨named, small, by omega⟩
      · rw [new_eq] at member
        obtain ⟨named, small⟩ := new_plain part member
        have waits : part ∈ waiting ++ added := List.mem_append_right _ member
        have queued_eq := charted'.queued_span waits named small
        have proper := (charted'.queued_eq waits named).1
        have queued : part.span.queued ∈ (framerAdd expat framer chunk).1.frames := by
          rw [charted'.frames_eq, ← queued_eq]
          exact List.mem_map_of_mem waits
        have contained := (inBounds.contained _ queued).2.2
        have same : (framerAdd expat framer chunk).1.buffer.length = framer.buffer.length := by
          rw [Buffer.length, Buffer.length, charted'.buffer_eq, charted.buffer_eq]
        rw [Span.queued_stop (show part.span.start ≤ part.span.stop from proper), kept,
          same] at contained
        exact contained

/-- The first frame is taken. -/
theorem take (sheltered : framer.Sheltered expat held waiting offset) {head : QueuedFrame}
    {frames : List QueuedFrame} (frames_eq : framer.frames = head :: frames) (heap : Heap)
    (data : Data) : ∃ waiting offset,
      (framerGetFrame2 heap framer head data).1.Sheltered expat held waiting offset := by
  obtain ⟨drawing, taken, charted⟩ := sheltered.charted
  obtain ⟨part, later, rfl⟩ := charted.exists_cons frames_eq
  obtain ⟨named, small, ends⟩ := sheltered.plain part List.mem_cons_self
  have proper := (sheltered.ordered.1 part List.mem_cons_self).1
  have size_eq : toSize (toInt32 (part.stop - part.start)) = part.stop - part.start := by
    have delta_eq : (part.stop : Int) - part.start = (part.stop - part.start : Nat) := by omega
    rw [delta_eq, toInt32_natCast (by omega), toSize_natCast (by omega)]
  have stop_eq : part.start + (part.stop - part.start) = part.stop := by omega
  obtain ⟨fed_eq, next_eq, -, charted'⟩ := charted.take sheltered.bufferIndex_eq named
    (by omega) frames_eq heap data size_eq
  rw [stop_eq] at next_eq charted'
  rw [toInt32_natCast small] at next_eq
  exact ⟨later, part.stop,
    { charted := ⟨drawing, taken ++ [part], charted' (Nat.le_refl _)⟩
      bufferIndex_eq := next_eq
      isPrefix := fed_eq ▸ sheltered.isPrefix
      accepted := fed_eq ▸ sheltered.accepted
      offset_le := ends
      plain := fun other member => sheltered.plain other (List.mem_cons_of_mem _ member) }⟩

end Framer.Sheltered

end

/-- Whatever is fed and whenever frames are taken, as long as the parts are in namespaces and end
below `2 ^ 31`, the framer is safe throughout exactly when the parts which are complete before an
error end in the buffer. -/
theorem failedAdd_safe_iff {expat : Expat} {heap : Heap} {uses : List FramerUse}
    {final : Framer} (nests : expat.Nests (usedBytes uses))
    (execution : Execution.run (framerTry expat heap) framerCreate uses = some final)
    (plain : Execution.Guarded (framerTry expat heap) (Plain expat) framerCreate uses) :
    Execution.Always (framerTry expat heap) Framer.Safe framerCreate uses ↔
      Execution.Guarded (framerTry expat heap) (FailsEarly expat) framerCreate uses := by
  have assumptions := (guarded_readsInOrder feeds_framerTry nests).and plain
  refine @Execution.always_iff_guarded_of_assumed _ _ _ (fun framer => ∃ held waiting offset,
    framer.Sheltered expat held waiting offset) _ _ _ ?_ ?_ _ _ _
    ⟨[], [], 0, sheltered_framerCreate expat⟩ (sheltered_framerCreate expat).safe execution
    assumptions
  · rintro framer use next ⟨held, waiting, offset, sheltered⟩ ⟨inOrder, assumed⟩ early tried
    obtain ⟨chunk, rfl, rfl⟩ | ⟨data, head, frames, rfl, frames_eq, rfl⟩ := framerTry_cases tried
    · obtain ⟨held', waiting', offset', kept⟩ := (sheltered.add inOrder assumed).1 early
      exact ⟨⟨held', waiting', offset', kept⟩, kept.safe⟩
    · obtain ⟨waiting', offset', kept⟩ := sheltered.take frames_eq heap data
      exact ⟨⟨held, waiting', offset', kept⟩, kept.safe⟩
  · rintro framer use next ⟨held, waiting, offset, sheltered⟩ ⟨inOrder, assumed⟩ tried safe
    obtain ⟨chunk, rfl, rfl⟩ | ⟨data, head, frames, rfl, frames_eq, rfl⟩ := framerTry_cases tried
    · exact (sheltered.add inOrder assumed).2 safe.inBounds
    · trivial

/-- The stream has begun, the start tag is in the queue, and an error follows. -/
theorem failedAdd_safe_later :
    Execution.Always (framerTry (Expat.reading sampleStream) fun _ _ => 0) Framer.Safe framerCreate
      [.add sampleStream.root.bytes, .add (text "</x>"), .take (dataInit 64)] := by
  obtain ⟨final, execution⟩ : ∃ final, Execution.run
      (framerTry (Expat.reading sampleStream) fun _ _ => 0) framerCreate
      [.add sampleStream.root.bytes, .add (text "</x>"), .take (dataInit 64)] = some final :=
    Option.isSome_iff_exists.mp (by decide +kernel)
  have nests : (Expat.reading sampleStream).Nests (usedBytes
      [.add sampleStream.root.bytes, .add (text "</x>"), .take (dataInit 64)]) :=
    sampleStream.nests_reading (by decide +kernel) ⟨by decide +kernel, trivial⟩ _
  exact (failedAdd_safe_iff nests execution (by decide +kernel)).mpr (by decide +kernel)

/-- The start tag and an error come in one chunk: the start tag is queued, and the buffer is
empty. -/
theorem failedAdd_not_safe_together :
    (Expat.reading sampleStream).Nests
        (usedBytes [.add (sampleStream.root.bytes ++ text "</x>")]) ∧
      Execution.Guarded (framerTry (Expat.reading sampleStream) fun _ _ => 0)
        (Plain (Expat.reading sampleStream)) framerCreate
        [.add (sampleStream.root.bytes ++ text "</x>")] ∧
      ∃ final, Execution.run (framerTry (Expat.reading sampleStream) fun _ _ => 0) framerCreate
          [.add (sampleStream.root.bytes ++ text "</x>")] = some final ∧
        final.error = true ∧ final.frames = [⟨0, 32⟩] ∧ final.buffer.length = 0 ∧
        ¬ Execution.Always (framerTry (Expat.reading sampleStream) fun _ _ => 0) Framer.Safe
          framerCreate [.add (sampleStream.root.bytes ++ text "</x>")] := by
  refine ⟨sampleStream.nests_reading (by decide +kernel) ⟨by decide +kernel, trivial⟩ _,
    by decide +kernel, ?_⟩
  obtain ⟨final, execution, error_eq, frames_eq, bufferIndex_eq, length_eq⟩ :
      ∃ final, Execution.run (framerTry (Expat.reading sampleStream) fun _ _ => 0) framerCreate
          [.add (sampleStream.root.bytes ++ text "</x>")] = some final ∧
        final.error = true ∧ final.frames = [⟨0, 32⟩] ∧ final.bufferIndex = 0 ∧
        final.buffer.length = 0 := by
    decide +kernel
  refine ⟨final, execution, error_eq, frames_eq, length_eq, fun always => ?_⟩
  have inBounds := (always _ [] final (by simp) execution).inBounds
  have contained := (inBounds.contained ⟨0, 32⟩ (by simp [frames_eq])).2.2
  rw [bufferIndex_eq, length_eq] at contained
  exact absurd contained (by decide)

end Jabsocket
