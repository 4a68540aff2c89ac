import Jabsocket.QueueBounds

/-!
# The outline of a stream

Handler calls come in the order of the tags: every end belongs to the innermost open element, and
positions do not go back.  Following them gives the open elements and, with a level for the
innermost one, the parts into which the stream falls: the start and the end tag of a stream element,
and the elements which end at level one.  The framer's level is counted anew from every stream
element; otherwise it is the number of open elements.
-/

namespace Jabsocket

/-- The element is in a namespace and its name there is `stream`. -/
def isStream (el : List UInt8) : Bool := bareName el == some (text "stream")

/-- The element is in a namespace. -/
def isNamespaced (el : List UInt8) : Bool := (bareName el).isSome

/-- The element of a handler call. -/
def Callback.el : Callback → List UInt8
  | .start el _ _ _ => el
  | .stop el _ _ => el

/-! ## Handler calls in the order of the tags -/

/-- An element which has started and not ended, with the position of its start tag. -/
structure OpenElement where
  name : List UInt8
  start : Nat
  deriving DecidableEq, Repr

/-- The open elements, the innermost one first, and the position behind the last tag. -/
structure Cursor where
  stack : List OpenElement
  position : Nat
  deriving DecidableEq, Repr

/-- Before the first tag. -/
def Cursor.initial : Cursor := { stack := [], position := 0 }

/-- One handler call, if its tag can come next.  A start tag has at least one byte; the end of an
empty-element tag has none. -/
def follow (cursor : Cursor) : Callback → Option Cursor
  | .start el _ index count =>
      if cursor.position ≤ index ∧ 0 < count then
        some { stack := ⟨el, index⟩ :: cursor.stack, position := index + count }
      else none
  | .stop el index count =>
      match cursor.stack with
      | [] => none
      | top :: rest =>
          if top.name = el ∧ cursor.position ≤ index then
            some { stack := rest, position := index + count }
          else none

/-- What a handler call does to the cursor. -/
theorem follow_cases {cursor next : Cursor} {callback : Callback}
    (followed : follow cursor callback = some next) :
    (∃ el attr index count, callback = .start el attr index count ∧ cursor.position ≤ index ∧
        0 < count ∧ next = { stack := ⟨el, index⟩ :: cursor.stack, position := index + count }) ∨
      ∃ el index count start rest, callback = .stop el index count ∧
        cursor.stack = ⟨el, start⟩ :: rest ∧ cursor.position ≤ index ∧
        next = { stack := rest, position := index + count } := by
  cases callback with
  | start el attr index count =>
      simp only [follow] at followed
      split_ifs at followed with fits
      exact Or.inl ⟨el, attr, index, count, rfl, fits.1, fits.2, (Option.some.inj followed).symm⟩
  | stop el index count =>
      simp only [follow] at followed
      split at followed
      · cases followed
      · rename_i top rest stack_eq
        split_ifs at followed with fits
        refine Or.inr ⟨el, index, count, top.start, rest, rfl, ?_, fits.2,
          (Option.some.inj followed).symm⟩
        rw [stack_eq, ← fits.1]

/-! ## Parts -/

/-- A part of a stream: the name of its element, its position, the position which the framer
remembers for it, and the position behind it. -/
structure Part where
  name : List UInt8
  start : Nat
  recorded : Nat
  stop : Nat
  deriving DecidableEq, Repr

/-- The positions of a part. -/
def Part.span (part : Part) : Span := ⟨part.start, part.stop⟩

/-- What the framer queues for a part. -/
def Part.queued (part : Part) : QueuedFrame :=
  { index := toInt32 part.recorded, size := toInt32 (part.stop - part.recorded) }

/-- The level of the innermost open element, the position which the framer remembers, and the parts
which are complete. -/
structure Outline where
  level : Int
  remembered : Nat
  parts : List Part
  deriving DecidableEq, Repr

/-- Before the first tag. -/
def Outline.initial : Outline := { level := 0, remembered := 0, parts := [] }

/-- One handler call, with the elements which are open before it.  The level is counted anew from
the elements which are reset. -/
def Outline.next (resets : List UInt8 → Bool) (outline : Outline) (stack : List OpenElement) :
    Callback → Outline
  | .start el _ index count =>
      let level := if resets el then 0 else outline.level
      { level := level + 1
        remembered := if level = 1 ∧ isNamespaced el then index else outline.remembered
        parts :=
          if level = 0 ∧ isStream el then outline.parts ++ [⟨el, index, index, index + count⟩]
          else outline.parts }
  | .stop el index count =>
      let level := outline.level - 1
      { outline with
        level
        parts :=
          if level = 1 then
            outline.parts ++
              [⟨el, (stack.head?.map OpenElement.start).getD 0, outline.remembered, index + count⟩]
          else if level ≤ 0 ∧ isStream el then
            outline.parts ++ [⟨el, index, index, index + count⟩]
          else outline.parts }

/-- A handler call adds no part or one for its element. -/
theorem Outline.parts_next (resets : List UInt8 → Bool) (outline : Outline)
    (stack : List OpenElement) (callback : Callback) :
    ∃ added, (outline.next resets stack callback).parts = outline.parts ++ added ∧
      ∀ part ∈ added, part.name = callback.el := by
  cases callback with
  | start el attr index count =>
      dsimp only [Outline.next]
      generalize (if resets el = true then 0 else outline.level) = level
      split_ifs
      · exact ⟨_, rfl, by simp [Callback.el]⟩
      · exact ⟨[], by simp, by simp⟩
  | stop el index count =>
      dsimp only [Outline.next]
      split_ifs
      · exact ⟨_, rfl, by simp [Callback.el]⟩
      · exact ⟨_, rfl, by simp [Callback.el]⟩
      · exact ⟨[], by simp, by simp⟩

/-- The position behind the last part. -/
def Outline.last (outline : Outline) : Nat := lastStop 0 (outline.parts.map Part.span)

theorem Outline.last_concat (outline : Outline) (part : Part) (level : Int) (remembered : Nat) :
    Outline.last { level, remembered, parts := outline.parts ++ [part] } = part.stop := by
  simp [Outline.last, lastStop_append, lastStop, Part.span]

/-- How the parts lie in the document. -/
structure Outline.Fits (outline : Outline) (cursor : Cursor) : Prop where
  /-- At level two and above, the element which started at level one is open. -/
  child : 2 ≤ outline.level → ∃ element, cursor.stack[(outline.level - 2).toNat]? = some element ∧
    outline.last ≤ element.start ∧ element.start < cursor.position ∧
    (if isNamespaced element.name then outline.remembered = element.start
      else outline.remembered < element.start)
  remembered_le : outline.remembered ≤ cursor.position
  remembered_lt : 1 ≤ outline.level → outline.remembered < cursor.position
  behind : outline.last ≤ cursor.position
  ordered : Ordered 0 (outline.parts.map Part.span)
  /-- Every part begins where the framer remembers, unless it has no namespace. -/
  recorded : ∀ part ∈ outline.parts, part.start ≤ part.stop ∧
    if isNamespaced part.name then part.recorded = part.start else part.recorded < part.start

theorem Outline.fits_initial : Outline.initial.Fits Cursor.initial where
  child := fun high => absurd high (by decide)
  remembered_le := Nat.le_refl 0
  remembered_lt := fun high => absurd high (by decide)
  behind := Nat.le_refl 0
  ordered := trivial
  recorded := by simp [Outline.initial]

theorem isNamespaced_of_isStream {el : List UInt8} (stream : isStream el = true) :
    isNamespaced el = true := by
  have name_eq : bareName el = some (text "stream") := by simpa [isStream] using stream
  simp [isNamespaced, name_eq]

/-- A part which begins behind the others keeps them in order. -/
theorem Outline.ordered_concat {outline : Outline}
    (ordered : Ordered 0 (outline.parts.map Part.span)) {part : Part}
    (behind : outline.last ≤ part.start) :
    Ordered 0 ((outline.parts ++ [part]).map Part.span) := by
  rw [List.map_append, ordered_append]
  exact ⟨ordered, behind, trivial⟩

section Steps

variable {outline : Outline} {cursor : Cursor} {resets : List UInt8 → Bool}

/-- A part which is a tag behind all others is added, at level one or below. -/
theorem Outline.Fits.addTag (fits : outline.Fits cursor) {el : List UInt8} {index count : Nat}
    (stream : isStream el = true) (later : cursor.position ≤ index) {level : Int} (low : level ≤ 1)
    (positive : level = 1 → 0 < count) (stack : List OpenElement) :
    Outline.Fits
      { outline with level, parts := outline.parts ++ [⟨el, index, index, index + count⟩] }
      { stack, position := index + count } where
  child := fun high => absurd low (by dsimp only at high; omega)
  remembered_le := by
    have := fits.remembered_le
    dsimp only
    omega
  remembered_lt := fun high => by
    have := fits.remembered_le
    have := positive (by dsimp only at high; omega)
    dsimp only
    omega
  behind := (Outline.last_concat outline _ _ _).le
  ordered := Outline.ordered_concat fits.ordered (fits.behind.trans later)
  recorded := by
    intro part member
    rcases List.mem_append.mp member with earlier | last
    · exact fits.recorded part earlier
    · obtain rfl := List.mem_singleton.mp last
      rw [if_pos (isNamespaced_of_isStream stream)]
      exact ⟨Nat.le_add_right _ _, rfl⟩

/-- A start tag keeps the parts in order. -/
theorem Outline.Fits.start (fits : outline.Fits cursor) {el : List UInt8}
    {attr : List (List UInt8 × List UInt8)} {index count : Nat} (later : cursor.position ≤ index)
    (positive : 0 < count) :
    (outline.next resets cursor.stack (.start el attr index count)).Fits
      { stack := ⟨el, index⟩ :: cursor.stack, position := index + count } := by
  have remembered_le := fits.remembered_le
  have behind := fits.behind
  simp only [Outline.next]
  generalize level_eq : (if resets el = true then 0 else outline.level) = level
  have level_cases : level = 0 ∨ level = outline.level := by
    split_ifs at level_eq
    · exact Or.inl level_eq.symm
    · exact Or.inr level_eq.symm
  by_cases opens : level = 0 ∧ isStream el = true
  · obtain ⟨rfl, stream⟩ := opens
    rw [if_neg (show ¬ ((0 : Int) = 1 ∧ isNamespaced el = true) by simp), if_pos ⟨rfl, stream⟩]
    exact fits.addTag stream later (by decide) (fun _ => positive) _
  · rw [if_neg opens]
    refine ⟨?_, ?_, ?_, behind.trans (by dsimp only; omega), fits.ordered, fits.recorded⟩
    · intro high
      dsimp only at high ⊢
      obtain rfl : level = outline.level := level_cases.resolve_left (by omega)
      rcases eq_or_ne outline.level 1 with first | deeper
      · refine ⟨⟨el, index⟩, by simp [first], behind.trans later, by dsimp only; omega, ?_⟩
        have remembered_lt := fits.remembered_lt (by omega)
        dsimp only
        by_cases named : isNamespaced el = true
        · rw [if_pos named, if_pos ⟨first, named⟩]
        · rw [if_neg named, if_neg fun both => named both.2]
          omega
      · obtain ⟨element, found, last_le, inside, kept⟩ := fits.child (by omega)
        have place : (outline.level + 1 - 2).toNat = (outline.level - 2).toNat + 1 := by omega
        have unchanged : (if outline.level = 1 ∧ isNamespaced el = true then index
            else outline.remembered) = outline.remembered := if_neg fun both => deeper both.1
        rw [unchanged]
        refine ⟨element, ?_, last_le, by omega, kept⟩
        rw [place, List.getElem?_cons_succ, found]
    · dsimp only
      split_ifs <;> omega
    · intro _
      dsimp only
      split_ifs <;> omega

/-- An end tag keeps the parts in order. -/
theorem Outline.Fits.stop (fits : outline.Fits cursor) {el : List UInt8} {start : Nat}
    {rest : List OpenElement} (stack_eq : cursor.stack = ⟨el, start⟩ :: rest) {index count : Nat}
    (later : cursor.position ≤ index) :
    (outline.next resets cursor.stack (.stop el index count)).Fits
      { stack := rest, position := index + count } := by
  have remembered_le := fits.remembered_le
  have behind := fits.behind
  simp only [Outline.next]
  by_cases child : outline.level - 1 = 1
  · obtain ⟨element, found, last_le, inside, kept⟩ := fits.child (by omega)
    obtain rfl : ⟨el, start⟩ = element := by
      rw [show (outline.level - 2).toNat = 0 by omega, stack_eq] at found
      exact Option.some.inj found
    have start_eq : (cursor.stack.head?.map OpenElement.start).getD 0 = start := by
      rw [stack_eq]
      rfl
    rw [if_pos child, start_eq, child]
    refine ⟨fun high => absurd (show (2 : Int) ≤ 1 from high) (by decide), by dsimp only; omega,
      fun _ => ?_, (Outline.last_concat outline _ _ _).le,
      Outline.ordered_concat fits.ordered last_le, ?_⟩
    · have := fits.remembered_lt (by omega)
      dsimp only
      omega
    · intro part member
      rcases List.mem_append.mp member with earlier | last
      · exact fits.recorded part earlier
      · obtain rfl := List.mem_singleton.mp last
        dsimp only at inside kept ⊢
        exact ⟨by omega, kept⟩
  rw [if_neg child]
  by_cases closes : outline.level - 1 ≤ 0 ∧ isStream el = true
  · rw [if_pos closes]
    exact fits.addTag closes.2 later (by omega) (by omega) _
  · rw [if_neg closes]
    refine ⟨?_, ?_, ?_, behind.trans (by dsimp only; omega), fits.ordered, fits.recorded⟩
    · intro high
      dsimp only at high ⊢
      obtain ⟨element, found, last_le, inside, kept⟩ := fits.child (by omega)
      have place : (outline.level - 2).toNat = (outline.level - 1 - 2).toNat + 1 := by omega
      rw [place, stack_eq, List.getElem?_cons_succ] at found
      exact ⟨element, found, last_le, by omega, kept⟩
    · dsimp only
      omega
    · intro high
      have := fits.remembered_lt (by dsimp only at high; omega)
      dsimp only
      omega

/-- A handler call keeps the parts in order. -/
theorem Outline.Fits.next (fits : outline.Fits cursor) {callback : Callback} {after : Cursor}
    (followed : follow cursor callback = some after) :
    (outline.next resets cursor.stack callback).Fits after := by
  obtain ⟨el, attr, index, count, rfl, later, positive, rfl⟩ |
    ⟨el, index, count, start, rest, rfl, stack_eq, later, rfl⟩ := follow_cases followed
  · exact fits.start later positive
  · exact fits.stop stack_eq later

end Steps

/-! ## The framer -/

theorem toInt32_toInt32 (value : Int) : toInt32 (toInt32 value) = toInt32 value :=
  Int.bmod_bmod

theorem toInt32_sub (left right : Int) :
    toInt32 (toInt32 left - toInt32 right) = toInt32 (left - right) := by
  simp [toInt32]

/-- What the framer queues for a tag. -/
theorem Part.queued_tag (name : List UInt8) (index count : Nat) :
    Part.queued ⟨name, index, index, index + count⟩ =
      { index := toInt32 index, size := toInt32 count } := by
  have size_eq : ((index + count : Nat) : Int) - index = count := by omega
  simp only [Part.queued, size_eq]

/-- The framer has the level of an outline, remembers the same position, and has the frames of its
parts in the queue, except for those which were taken. -/
structure Framer.Shows (framer : Framer) (outline : Outline) (front : List QueuedFrame) : Prop where
  level_eq : framer.level = outline.level
  index_eq : framer.index = toInt32 outline.remembered
  frames_eq : outline.parts.map Part.queued = front ++ framer.frames

section Handlers

variable {framer : Framer} {outline : Outline} {front : List QueuedFrame}
  (resets : List UInt8 → Bool) (stack : List OpenElement)

/-- A start tag.  Where the outline does not count anew, a stream element is at level zero. -/
theorem Framer.Shows.start (shows : framer.Shows outline front) {el : List UInt8}
    (streams : resets el = true → isStream el = true)
    (outermost : isStream el = true → resets el = false → outline.level = 0)
    (attr : List (List UInt8 × List UInt8)) (index count : Nat) :
    (framerHandle framer (.start el attr index count)).Shows
      (outline.next resets stack (.start el attr index count)) front := by
  obtain ⟨level_eq, index_eq, frames_eq⟩ := shows
  have same : (if resets el = true then 0 else outline.level) =
      if isStream el = true then 0 else outline.level := by
    cases reset : resets el with
    | true => simp [streams reset]
    | false =>
        by_cases stream : isStream el = true
        · simp [stream, outermost stream reset]
        · simp [stream]
  simp only [Outline.next, same]
  cases name_eq : bareName el with
  | none =>
      have other : isStream el = false := by simp [isStream, name_eq]
      have bare : isNamespaced el = false := by simp [isNamespaced, name_eq]
      simp only [framerHandle, framerStart, name_eq, other, bare]
      exact ⟨by simp [level_eq], by simp [index_eq], by simp [frames_eq]⟩
  | some name =>
      have named : isNamespaced el = true := by simp [isNamespaced, name_eq]
      by_cases stream : name = text "stream"
      · have is_stream : isStream el = true := by simp [isStream, name_eq, stream]
        simp only [framerHandle, framerStart, name_eq, if_pos stream, is_stream, framerAddFrame]
        exact ⟨by simp, by simpa using index_eq, by simp [frames_eq, Part.queued_tag]⟩
      · have other : isStream el = false := by simp [isStream, name_eq, stream]
        simp only [framerHandle, framerStart, name_eq, if_neg stream, other, named, level_eq]
        by_cases first : outline.level = 1
        · exact ⟨by simp [first], by simp [first], by simp [first, frames_eq]⟩
        · exact ⟨by simp [first, level_eq], by simp [first, index_eq],
            by simp [first, frames_eq]⟩

/-- An end tag; that of a stream element is at level one or below. -/
theorem Framer.Shows.stop (shows : framer.Shows outline front) {el : List UInt8}
    (low : isStream el = true → outline.level ≤ 1) (index count : Nat) :
    (framerHandle framer (.stop el index count)).Shows
      (outline.next resets stack (.stop el index count)) front := by
  obtain ⟨level_eq, index_eq, frames_eq⟩ := shows
  have stream_iff : bareName el = some (text "stream") ↔ isStream el = true := by simp [isStream]
  simp only [Outline.next, framerHandle, framerEnd, level_eq, stream_iff]
  by_cases child : outline.level - 1 = 1
  · rw [if_pos child, if_pos child]
    refine ⟨rfl, index_eq, ?_⟩
    simp only [framerAddFrame, List.map_append, frames_eq, List.append_assoc, List.map_cons,
      List.map_nil, Part.queued, index_eq, toInt32_toInt32, toInt32_sub, Int.natCast_add]
  · rw [if_neg child, if_neg child]
    by_cases stream : isStream el = true
    · have bottom : outline.level - 1 ≤ 0 := by
        have := low stream
        omega
      rw [if_pos stream, if_pos ⟨bottom, stream⟩]
      exact ⟨rfl, index_eq, by simp [framerAddFrame, frames_eq, Part.queued_tag]⟩
    · rw [if_neg stream, if_neg fun both => stream both.2]
      exact ⟨rfl, index_eq, frames_eq⟩

end Handlers

/-! ## The outline which the framer follows -/

/-- The open elements, and the outline whose level is counted anew from every stream element. -/
structure Drawing where
  cursor : Cursor
  outline : Outline
  deriving DecidableEq, Repr

/-- Before the first tag. -/
def Drawing.initial : Drawing := { cursor := Cursor.initial, outline := Outline.initial }

/-- One handler call. -/
def draw (drawing : Drawing) (callback : Callback) : Option Drawing :=
  (follow drawing.cursor callback).map fun cursor =>
    { cursor, outline := drawing.outline.next isStream drawing.cursor.stack callback }

/-- The parts for which the framer queues frames. -/
def partsOf (callbacks : List Callback) : List Part :=
  ((Execution.run draw Drawing.initial callbacks).map fun drawing => drawing.outline.parts).getD []

/-- The parser calls its handlers in the order of the tags, for tags which it was fed. -/
def Expat.InOrder (expat : Expat) (fed : List UInt8) : Prop :=
  ∃ cursor, Execution.run follow Cursor.initial (expat.report fed) = some cursor ∧
    cursor.position ≤ fed.length

/-- The same for every beginning of a stream.  It holds unless elements come from entities, which
have no tags of their own in the stream. -/
def Expat.Nests (expat : Expat) (stream : List UInt8) : Prop :=
  ∀ fed, fed <+: stream → expat.InOrder fed

/-- The parts lie in order, and the level at a stream element is one. -/
structure Drawing.Sound (drawing : Drawing) : Prop where
  fits : drawing.outline.Fits drawing.cursor
  streams : ∀ (depth : Nat) (element : OpenElement),
    drawing.cursor.stack[depth]? = some element → isStream element.name = true →
      drawing.outline.level ≤ depth + 1

theorem Drawing.sound_initial : Drawing.initial.Sound where
  fits := Outline.fits_initial
  streams := by simp [Drawing.initial, Cursor.initial]

section Drawings

variable {drawing next : Drawing} {callback : Callback} {callbacks : List Callback}

/-- What a handler call does to the framer's outline. -/
structure Drawing.Step (drawing next : Drawing) (callback : Callback) : Prop where
  sound : next.Sound
  extends_parts : drawing.outline.parts <+: next.outline.parts
  shows : ∀ framer front, Framer.Shows framer drawing.outline front →
    (framerHandle framer callback).Shows next.outline front

theorem Drawing.Sound.step (sound : drawing.Sound) (drawn : draw drawing callback = some next) :
    drawing.Step next callback := by
  obtain ⟨cursor, followed, rfl⟩ := Option.map_eq_some_iff.mp drawn
  have fits : (drawing.outline.next isStream drawing.cursor.stack callback).Fits cursor :=
    sound.fits.next followed
  have extended : drawing.outline.parts <+:
      (drawing.outline.next isStream drawing.cursor.stack callback).parts := by
    obtain ⟨added, parts_eq, -⟩ := Outline.parts_next isStream drawing.outline
      drawing.cursor.stack callback
    exact ⟨added, parts_eq.symm⟩
  obtain ⟨el, attr, index, count, rfl, -, -, rfl⟩ |
    ⟨el, index, count, start, rest, rfl, stack_eq, -, rfl⟩ := follow_cases followed
  · refine ⟨⟨fits, fun depth element found stream => ?_⟩, extended, fun framer front shows => ?_⟩
    · dsimp only [Outline.next] at found ⊢
      cases depth with
      | zero =>
          obtain rfl : ⟨el, index⟩ = element := by simpa using found
          simp [stream]
      | succ depth =>
          have bound := sound.streams depth element found stream
          split_ifs <;> omega
    · refine shows.start isStream drawing.cursor.stack id (fun stream other => ?_) attr index count
      rw [stream] at other
      cases other
  · refine ⟨⟨fits, fun depth element found stream => ?_⟩, extended, fun framer front shows => ?_⟩
    · have bound := sound.streams (depth + 1) element (by rw [stack_eq]; exact found) stream
      dsimp only [Outline.next]
      omega
    · refine shows.stop isStream drawing.cursor.stack (fun stream => ?_) index count
      have bound := sound.streams 0 ⟨el, start⟩ (by rw [stack_eq]; rfl) stream
      omega

theorem Drawing.Sound.run (sound : drawing.Sound)
    (drawn : Execution.run draw drawing callbacks = some next) :
    next.Sound ∧ drawing.outline.parts <+: next.outline.parts ∧
      ∀ framer front, Framer.Shows framer drawing.outline front →
        (callbacks.foldl framerHandle framer).Shows next.outline front := by
  induction callbacks generalizing drawing with
  | nil =>
      obtain rfl := Execution.run_nil.mp drawn
      exact ⟨sound, List.prefix_rfl, fun _ _ shows => shows⟩
  | cons callback callbacks ih =>
      obtain ⟨middle, first, rest⟩ := Execution.run_cons.mp drawn
      obtain ⟨middle_sound, extended, shown⟩ := sound.step first
      obtain ⟨next_sound, extended_again, shown_again⟩ := ih middle_sound rest
      exact ⟨next_sound, extended.trans extended_again, fun framer front shows =>
        shown_again _ front (shown framer front shows)⟩

/-- Handler calls which can be followed can be drawn. -/
theorem exists_run_draw {cursor : Cursor}
    (followed : Execution.run follow drawing.cursor callbacks = some cursor) :
    ∃ next, Execution.run draw drawing callbacks = some next ∧ next.cursor = cursor := by
  induction callbacks generalizing drawing with
  | nil => exact ⟨drawing, rfl, Execution.run_nil.mp followed⟩
  | cons callback callbacks ih =>
      obtain ⟨middle, first, rest⟩ := Execution.run_cons.mp followed
      have drawn : draw drawing callback = some
          { cursor := middle
            outline := drawing.outline.next isStream drawing.cursor.stack callback } := by
        rw [draw, first]
        rfl
      obtain ⟨next, run_eq, cursor_eq⟩ := @ih { cursor := middle, outline := _ } rest
      exact ⟨next, Execution.run_cons.mpr ⟨_, drawn, run_eq⟩, cursor_eq⟩

end Drawings

/-! ## Calls of the framer -/

/-- What a call feeds is read in order. -/
def ReadsInOrder (expat : Expat) (framer : Framer) : FramerUse → Prop
  | .add chunk => expat.InOrder (framer.fed ++ chunk)
  | .take _ => True

/-- When a stream is read in order, so is what the calls feed. -/
theorem guarded_readsInOrder {expat : Expat} {step : Framer → FramerUse → Option Framer}
    (feeds : ∀ framer use next, step framer use = some next →
      next.fed = framer.fed ++ usedBytes [use])
    {framer : Framer} {uses : List FramerUse}
    (nests : expat.Nests (framer.fed ++ usedBytes uses)) :
    Execution.Guarded step (ReadsInOrder expat) framer uses := by
  induction uses generalizing framer with
  | nil => trivial
  | cons use uses ih =>
      have bytes_eq : usedBytes (use :: uses) = usedBytes [use] ++ usedBytes uses := by
        simp [usedBytes]
      rw [bytes_eq, ← List.append_assoc] at nests
      refine ⟨?_, fun next stepped => ih ?_⟩
      · cases use with
        | add chunk =>
            have fed_eq : framer.fed ++ usedBytes [.add chunk] = framer.fed ++ chunk := by
              simp [usedBytes]
            rw [fed_eq] at nests
            exact nests _ (List.prefix_append _ _)
        | take data => trivial
      · rw [feeds framer use next stepped]
        exact nests

theorem fed_framerAdd (expat : Expat) (framer : Framer) (chunk : List UInt8) :
    (framerAdd expat framer chunk).1.fed = framer.fed ++ chunk := by
  simp only [framerAdd]
  split_ifs <;> rfl

theorem fed_framerGetFrame2 (heap : Heap) (framer : Framer) (head : QueuedFrame) (data : Data) :
    (framerGetFrame2 heap framer head data).1.fed = framer.fed := by
  simp only [framerGetFrame2, framerDrop, framerSkipTo]
  split_ifs <;> rfl

/-! ## Documents -/

/-- The position behind the tag of a handler call. -/
def Callback.reach : Callback → Nat
  | .start _ _ index count => index + count
  | .stop _ index count => index + count

theorem position_of_follow {cursor next : Cursor} {callback : Callback}
    (followed : follow cursor callback = some next) : next.position = callback.reach := by
  obtain ⟨el, attr, index, count, rfl, -, -, rfl⟩ |
    ⟨el, index, count, start, rest, rfl, -, -, rfl⟩ := follow_cases followed
  · rfl
  · rfl

theorem position_le_of_run {cursor next : Cursor} {callbacks : List Callback} {bound : Nat}
    (reaches : ∀ callback ∈ callbacks, callback.reach ≤ bound) (before : cursor.position ≤ bound)
    (followed : Execution.run follow cursor callbacks = some next) : next.position ≤ bound := by
  induction callbacks generalizing cursor with
  | nil =>
      obtain rfl := Execution.run_nil.mp followed
      exact before
  | cons callback callbacks ih =>
      obtain ⟨middle, first, rest⟩ := Execution.run_cons.mp followed
      obtain ⟨reached, later⟩ := List.forall_mem_cons.mp reaches
      exact ih later (position_of_follow first ▸ reached) rest

theorem follow_start {cursor : Cursor} {index : Nat} (before : cursor.position ≤ index)
    {tag : Tag} (nonempty : tag.bytes ≠ []) :
    follow cursor (.start tag.name tag.attr index tag.bytes.length) =
      some { stack := ⟨tag.name, index⟩ :: cursor.stack, position := index + tag.bytes.length } :=
  if_pos ⟨before, List.length_pos_of_ne_nil nonempty⟩

theorem follow_stop {cursor : Cursor} {el : List UInt8} {start index : Nat}
    {rest : List OpenElement} (stack_eq : cursor.stack = ⟨el, start⟩ :: rest)
    (before : cursor.position ≤ index) (count : Nat) :
    follow cursor (.stop el index count) = some { stack := rest, position := index + count } := by
  simp only [follow, stack_eq]
  exact if_pos ⟨trivial, before⟩

/-- The handler calls for content are in the order of its tags. -/
theorem Content.run_follow (content : Content)
    (nonempty : content.AllTags fun tag => tag.bytes ≠ []) {cursor : Cursor} {index : Nat}
    (before : cursor.position ≤ index) :
    ∃ position, Execution.run follow cursor ((content.marks index).map Prod.snd) =
        some { stack := cursor.stack, position } ∧ position ≤ index + content.bytes.length := by
  induction content generalizing cursor index with
  | nil => exact ⟨cursor.position, rfl, before⟩
  | other bytes rest ih =>
      obtain ⟨position, followed, within⟩ :=
        @ih nonempty cursor (index + bytes.length) (by omega)
      refine ⟨position, followed, ?_⟩
      simp only [Content.bytes, List.length_append]
      omega
  | empty tag rest ih =>
      obtain ⟨position, followed, within⟩ := @ih nonempty.2
        { stack := cursor.stack, position := index + tag.bytes.length + 0 }
        (index + tag.bytes.length) (Nat.le_refl _)
      refine ⟨position, ?_, ?_⟩
      · exact Execution.run_cons.mpr ⟨_, follow_start before nonempty.1,
          Execution.run_cons.mpr ⟨_, follow_stop rfl (Nat.le_refl _) 0, followed⟩⟩
      · simp only [Content.bytes, List.length_append]
        omega
  | element tag content endTag rest content_ih rest_ih =>
      obtain ⟨inner, content_followed, content_within⟩ := @content_ih nonempty.2.1
        { stack := ⟨tag.name, index⟩ :: cursor.stack, position := index + tag.bytes.length }
        (index + tag.bytes.length) (Nat.le_refl _)
      obtain ⟨position, followed, within⟩ := @rest_ih nonempty.2.2
        { stack := cursor.stack
          position := index + tag.bytes.length + content.bytes.length + endTag.length }
        (index + tag.bytes.length + content.bytes.length + endTag.length) (Nat.le_refl _)
      refine ⟨position, ?_, ?_⟩
      · simp only [Content.marks, List.map_cons, List.map_append]
        refine Execution.run_cons.mpr ⟨_, follow_start before nonempty.1,
          Execution.run_append.mpr ⟨_, content_followed, Execution.run_cons.mpr ⟨_,
            follow_stop rfl content_within endTag.length, followed⟩⟩⟩
      · simp only [Content.bytes, List.length_append]
        omega

theorem Document.run_follow (document : Document) (root_bytes : document.root.bytes ≠ [])
    (content_bytes : document.content.AllTags fun tag => tag.bytes ≠ []) :
    ∃ cursor, Execution.run follow Cursor.initial (document.marks.map Prod.snd) = some cursor := by
  obtain ⟨position, followed, within⟩ := @Content.run_follow document.content content_bytes
    { stack := [⟨document.root.name, document.prolog.length⟩], position := document.inner }
    document.inner (Nat.le_refl _)
  simp only [Document.marks, List.map_cons, List.map_append, List.map_nil]
  exact ⟨_, Execution.run_cons.mpr ⟨_, follow_start (Nat.zero_le _) root_bytes,
    Execution.run_append.mpr ⟨_, followed, Execution.run_cons.mpr ⟨_,
      follow_stop rfl within document.endTag.length, rfl⟩⟩⟩⟩

theorem Content.reach_of_mem_marks {content : Content} {index : Nat} {mark : Mark}
    (member : mark ∈ content.marks index) : mark.2.reach = mark.1 := by
  induction content generalizing index with
  | nil => cases member
  | other bytes rest ih => exact ih member
  | empty tag rest ih =>
      simp only [Content.marks, List.mem_cons] at member
      rcases member with rfl | rfl | later
      · rfl
      · rfl
      · exact ih later
  | element tag content endTag rest content_ih rest_ih =>
      simp only [Content.marks, List.mem_cons, List.mem_append] at member
      rcases member with rfl | inside | rfl | later
      · rfl
      · exact content_ih inside
      · rfl
      · exact rest_ih later

theorem Document.reach_of_mem_marks {document : Document} {mark : Mark}
    (member : mark ∈ document.marks) : mark.2.reach = mark.1 := by
  simp only [Document.marks, List.mem_cons, List.mem_append, List.not_mem_nil, or_false] at member
  rcases member with rfl | inside | rfl
  · rfl
  · exact Content.reach_of_mem_marks inside
  · rfl

/-- The parser for one document calls its handlers in the order of the tags. -/
theorem Document.nests_reading (document : Document) (root_bytes : document.root.bytes ≠ [])
    (content_bytes : document.content.AllTags fun tag => tag.bytes ≠ []) (stream : List UInt8) :
    (Expat.reading document).Nests stream := by
  intro fed _
  have script_eq : (document.marks.map fun mark => (mark.1 - 1, mark.2)).map Prod.snd =
      document.marks.map Prod.snd := by
    rw [List.map_map]
    rfl
  have beginning : (Expat.reading document).report fed <+: document.marks.map Prod.snd := by
    rw [← script_eq]
    exact (List.takeWhile_prefix _).map Prod.snd
  obtain ⟨later, report_eq⟩ := beginning
  obtain ⟨final, whole⟩ := document.run_follow root_bytes content_bytes
  rw [← report_eq] at whole
  obtain ⟨cursor, followed, -⟩ := Execution.run_append.mp whole
  refine ⟨cursor, followed, position_le_of_run (fun callback member => ?_) (Nat.zero_le _) followed⟩
  obtain ⟨entry, reported, rfl⟩ := List.mem_map.mp member
  have reached := List.mem_takeWhile_imp reported
  obtain ⟨mark, mark_member, rfl⟩ := List.mem_map.mp (List.takeWhile_subset _ reported)
  have behind := document.marks_ordered.2 mark mark_member
  have inner_eq : document.inner = document.prolog.length + document.root.bytes.length := rfl
  have positive := List.length_pos_of_ne_nil root_bytes
  have bound := agreement_le_length fed document.bytes
  rw [decide_eq_true_eq] at reached
  dsimp only at reached ⊢
  rw [Document.reach_of_mem_marks mark_member]
  omega

end Jabsocket
