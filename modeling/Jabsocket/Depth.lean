import Jabsocket.Outline

/-!
# The level of the framer and the depth of the document

The framer resets its level at every element named `stream`, in any namespace and at any depth.  The
stream parser compares the namespace as well.  The level is the number of open elements as long as
no such element starts inside another element.
-/

namespace Jabsocket

/-- The frame of a part from its first byte. -/
def Part.exact (part : Part) : QueuedFrame :=
  { index := toInt32 part.start, size := toInt32 (part.stop - part.start) }

/-- The framer, the open elements, and the outline whose level is the number of open elements. -/
structure Traced where
  framer : Framer
  cursor : Cursor
  outline : Outline
  deriving DecidableEq, Repr

/-- After a reset. -/
def Traced.initial : Traced :=
  { framer := framerCreate, cursor := Cursor.initial, outline := Outline.initial }

/-- One handler call in a document whose elements are in namespaces. -/
def trace (traced : Traced) (callback : Callback) : Option Traced :=
  if isNamespaced callback.el then
    (follow traced.cursor callback).map fun cursor =>
      { framer := framerHandle traced.framer callback
        cursor
        outline := traced.outline.next (fun _ => false) traced.cursor.stack callback }
  else none

/-- The level is the number of open elements, which is an `int`.  The queue has one frame for the
start tag and the end tag of a stream and one for each completed child of the root. -/
structure Traced.CountsDepth (traced : Traced) : Prop where
  level_eq : traced.framer.level = traced.cursor.stack.length
  small : traced.cursor.stack.length < 2 ^ 31
  frames_eq : traced.framer.frames = traced.outline.parts.map Part.exact

/-- No element named `stream` starts inside another element, and the open elements can be
counted. -/
def StartsAtDepth (traced : Traced) : Callback → Prop
  | .start el _ _ _ =>
      (isStream el = true → traced.cursor.stack = []) ∧ traced.cursor.stack.length + 1 < 2 ^ 31
  | .stop _ _ _ => True

instance decidableStartsAtDepth (traced : Traced) (callback : Callback) :
    Decidable (StartsAtDepth traced callback) :=
  match callback with
  | .start _ _ _ _ => inferInstanceAs (Decidable (_ ∧ _))
  | .stop _ _ _ => isTrue trivial

/-- The framer follows the outline. -/
structure Traced.Sound (traced : Traced) : Prop where
  depth_eq : traced.outline.level = traced.cursor.stack.length
  small : traced.cursor.stack.length < 2 ^ 31
  shows : traced.framer.Shows traced.outline []
  fits : traced.outline.Fits traced.cursor
  named : ∀ part ∈ traced.outline.parts, isNamespaced part.name = true
  /-- Only the root is named `stream`. -/
  inner : ∀ element ∈ traced.cursor.stack.dropLast, isStream element.name = false

theorem Traced.sound_initial : Traced.initial.Sound where
  depth_eq := rfl
  small := by simp [Traced.initial, Cursor.initial]
  shows := ⟨rfl, by simp [Traced.initial, framerCreate, Outline.initial, toInt32], rfl⟩
  fits := Outline.fits_initial
  named := by simp [Traced.initial, Outline.initial]
  inner := by simp [Traced.initial, Cursor.initial]

section

variable {traced next : Traced} {callback : Callback}

theorem Traced.Sound.countsDepth (sound : traced.Sound) : traced.CountsDepth where
  level_eq := sound.shows.level_eq.trans sound.depth_eq
  small := sound.small
  frames_eq := by
    have queued_eq : traced.outline.parts.map Part.queued = traced.framer.frames :=
      sound.shows.frames_eq
    rw [← queued_eq]
    refine List.map_congr_left fun part member => ?_
    have recorded_eq := (sound.fits.recorded part member).2
    rw [if_pos (sound.named part member)] at recorded_eq
    rw [Part.queued, Part.exact, recorded_eq]

/-- What a handler call does. -/
theorem trace_cases (stepped : trace traced callback = some next) :
    isNamespaced callback.el = true ∧ ∃ cursor, follow traced.cursor callback = some cursor ∧
      next = { framer := framerHandle traced.framer callback
               cursor
               outline := traced.outline.next (fun _ => false) traced.cursor.stack callback } := by
  unfold trace at stepped
  split_ifs at stepped with named
  obtain ⟨cursor, followed, next_eq⟩ := Option.map_eq_some_iff.mp stepped
  exact ⟨named, cursor, followed, next_eq.symm⟩

/-- A guarded handler call. -/
theorem Traced.Sound.step (sound : traced.Sound) (guarded : StartsAtDepth traced callback)
    (stepped : trace traced callback = some next) : next.Sound := by
  obtain ⟨named, cursor, followed, rfl⟩ := trace_cases stepped
  have depth_eq := sound.depth_eq
  have small := sound.small
  have fits : (traced.outline.next (fun _ => false) traced.cursor.stack callback).Fits cursor :=
    sound.fits.next followed
  have parts_named : ∀ part ∈
      (traced.outline.next (fun _ => false) traced.cursor.stack callback).parts,
      isNamespaced part.name = true := by
    obtain ⟨added, parts_eq, names⟩ := Outline.parts_next (fun _ => false) traced.outline
      traced.cursor.stack callback
    intro part member
    rw [parts_eq] at member
    rcases List.mem_append.mp member with earlier | last
    · exact sound.named part earlier
    · rw [names part last]
      exact named
  obtain ⟨el, attr, index, count, rfl, -, -, rfl⟩ |
    ⟨el, index, count, start, rest, rfl, stack_eq, -, rfl⟩ := follow_cases followed
  · obtain ⟨outermost, countable⟩ := guarded
    refine ⟨?_, countable, ?_, fits, parts_named, ?_⟩
    · simp [Outline.next, depth_eq]
    · refine sound.shows.start (fun _ => false) traced.cursor.stack ?_ ?_ attr index count
      · intro reset
        cases reset
      · intro stream _
        rw [depth_eq, outermost stream]
        rfl
    · intro element member
      cases stack_eq : traced.cursor.stack with
      | nil => simp [stack_eq] at member
      | cons top rest =>
          rw [List.dropLast_cons_of_ne_nil (by simp [stack_eq])] at member
          rcases List.mem_cons.mp member with rfl | deeper
          · by_contra stream
            rw [outermost (by simpa using stream)] at stack_eq
            cases stack_eq
          · exact sound.inner element deeper
  · have low : isStream el = true → traced.outline.level ≤ 1 := by
      intro stream
      rw [depth_eq, stack_eq]
      cases rest with
      | nil => simp
      | cons second rest =>
          have other := sound.inner ⟨el, start⟩ (by simp [stack_eq])
          rw [stream] at other
          cases other
    rw [stack_eq, List.length_cons] at depth_eq small
    refine ⟨?_, by dsimp only; omega,
      sound.shows.stop (fun _ => false) traced.cursor.stack low index count, fits, parts_named, ?_⟩
    · simp only [Outline.next]
      omega
    · intro element member
      refine sound.inner element ?_
      rw [stack_eq]
      cases rest with
      | nil => cases member
      | cons second rest => exact List.mem_cons_of_mem _ member

/-- A start tag after which the level is the number of open elements. -/
theorem startsAtDepth_of_countsDepth (stepped : trace traced callback = some next)
    (counts : next.CountsDepth) : StartsAtDepth traced callback := by
  obtain ⟨-, cursor, followed, rfl⟩ := trace_cases stepped
  obtain ⟨level_eq, small, -⟩ := counts
  obtain ⟨el, attr, index, count, rfl, -, -, rfl⟩ |
    ⟨el, index, count, start, rest, rfl, -, -, rfl⟩ := follow_cases followed
  · refine ⟨fun stream => ?_, small⟩
    have name_eq : bareName el = some (text "stream") := by simpa [isStream] using stream
    have level_one : (framerHandle traced.framer (.start el attr index count)).level = 1 := by
      simp [framerHandle, framerStart, name_eq, framerAddFrame]
    simp only [level_one, List.length_cons] at level_eq
    exact List.length_eq_zero_iff.mp (by omega)
  · trivial

end

/-- In a document whose elements are in namespaces, the level is the number of open elements after
every handler call, and the queue has one frame for each completed child of the root, exactly when
no element named `stream` starts inside another one and the open elements can be counted. -/
theorem level_countsDepth_iff {callbacks : List Callback} {final : Traced}
    (execution : Execution.run trace Traced.initial callbacks = some final) :
    Execution.Always trace Traced.CountsDepth Traced.initial callbacks ↔
      Execution.Guarded trace StartsAtDepth Traced.initial callbacks := by
  refine Execution.always_iff_guarded_of_breaks ?_ ?_ Traced.sound_initial
    Traced.sound_initial.countsDepth execution
  · intro traced callback next sound guarded stepped
    have kept := sound.step guarded stepped
    exact ⟨kept, kept.countsDepth⟩
  · intro traced callback next _ stepped counts
    exact startsAtDepth_of_countsDepth stepped counts

/-! ## The parts of a document -/

section

variable {traced : Traced} {index : Nat}

theorem trace_of_follow {callback : Callback} {cursor : Cursor}
    (named : isNamespaced callback.el = true)
    (followed : follow traced.cursor callback = some cursor) :
    trace traced callback =
      some { framer := framerHandle traced.framer callback
             cursor
             outline := traced.outline.next (fun _ => false) traced.cursor.stack callback } := by
  rw [trace, if_pos named, followed]
  rfl

/-- A start tag inside the root. -/
theorem trace_start (before : traced.cursor.position ≤ index) (inside : 1 ≤ traced.outline.level)
    {tag : Tag} (named : isNamespaced tag.name = true) (nonempty : tag.bytes ≠ []) :
    ∃ next, trace traced (.start tag.name tag.attr index tag.bytes.length) = some next ∧
      next.cursor = { stack := ⟨tag.name, index⟩ :: traced.cursor.stack
                      position := index + tag.bytes.length } ∧
      next.outline.level = traced.outline.level + 1 ∧
      next.outline.parts = traced.outline.parts := by
  refine ⟨_, trace_of_follow named (follow_start before nonempty), rfl, ?_, ?_⟩
  · simp [Outline.next]
  · have deep : ¬ (traced.outline.level = 0 ∧ isStream tag.name = true) := fun both => by omega
    simp [Outline.next, deep]

/-- An end tag inside the root. -/
theorem trace_stop {el : List UInt8} {start : Nat} {rest : List OpenElement}
    (stack_eq : traced.cursor.stack = ⟨el, start⟩ :: rest)
    (before : traced.cursor.position ≤ index) (inside : 2 ≤ traced.outline.level)
    (named : isNamespaced el = true) (count : Nat) :
    ∃ next, trace traced (.stop el index count) = some next ∧
      next.cursor = { stack := rest, position := index + count } ∧
      next.outline.level = traced.outline.level - 1 ∧
      next.outline.parts.map Part.span = traced.outline.parts.map Part.span ++
        if traced.outline.level = 2 then [⟨start, index + count⟩] else [] := by
  refine ⟨_, trace_of_follow named (follow_stop stack_eq before count), rfl, rfl, ?_⟩
  by_cases child : traced.outline.level = 2
  · simp [Outline.next, child, stack_eq, Part.span]
  · have deeper : ¬ traced.outline.level - 1 = 1 := by omega
    have positive : ¬ (traced.outline.level - 1 ≤ 0 ∧ isStream el = true) := fun both => by omega
    simp only [Outline.next, if_neg deeper, if_neg positive, if_neg child, List.append_nil]

/-- The parts of content at level one are its elements. -/
theorem Content.run_trace (content : Content)
    (named : content.AllTags fun tag => isNamespaced tag.name = true ∧ tag.bytes ≠ [])
    (before : traced.cursor.position ≤ index) (inside : 1 ≤ traced.outline.level) :
    ∃ next, Execution.run trace traced ((content.marks index).map Prod.snd) = some next ∧
      next.cursor.stack = traced.cursor.stack ∧
      next.cursor.position ≤ index + content.bytes.length ∧
      next.outline.level = traced.outline.level ∧
      next.outline.parts.map Part.span = traced.outline.parts.map Part.span ++
        if traced.outline.level = 1 then (content.items index).map Item.span else [] := by
  induction content generalizing traced index with
  | nil => exact ⟨traced, rfl, rfl, before, rfl, by simp [Content.items]⟩
  | other bytes rest ih =>
      obtain ⟨next, traced_eq, stack_eq, within, level_eq, parts_eq⟩ :=
        @ih traced (index + bytes.length) named (by omega) inside
      refine ⟨next, traced_eq, stack_eq, ?_, level_eq, parts_eq⟩
      simp only [Content.bytes, List.length_append]
      omega
  | empty tag rest ih =>
      obtain ⟨⟨tag_named, nonempty⟩, rest_named⟩ := named
      obtain ⟨opened, start_eq, cursor_eq, opened_level, opened_parts⟩ :=
        trace_start before inside tag_named nonempty
      obtain ⟨closed, stop_eq, closed_cursor, closed_level, closed_parts⟩ :=
        @trace_stop opened (index + tag.bytes.length) tag.name index traced.cursor.stack
          (by rw [cursor_eq]) (by rw [cursor_eq]) (by omega) tag_named 0
      obtain ⟨next, traced_eq, stack_eq, within, level_eq, parts_eq⟩ :=
        @ih closed (index + tag.bytes.length) rest_named (by rw [closed_cursor]; rfl) (by omega)
      refine ⟨next, ?_, by rw [stack_eq, closed_cursor], ?_, by omega, ?_⟩
      · exact Execution.run_cons.mpr ⟨opened, start_eq,
          Execution.run_cons.mpr ⟨closed, stop_eq, traced_eq⟩⟩
      · simp only [Content.bytes, List.length_append]
        omega
      · rw [parts_eq, closed_parts, opened_parts, List.append_assoc]
        congr 1
        rw [show closed.outline.level = traced.outline.level by omega, opened_level]
        by_cases first : traced.outline.level = 1
        · simp [first, Content.items, Item.span, Item.stop]
        · simp [first, show ¬ traced.outline.level + 1 = 2 by omega]
  | element tag content endTag rest content_ih rest_ih =>
      obtain ⟨⟨tag_named, nonempty⟩, content_named, rest_named⟩ := named
      obtain ⟨opened, start_eq, cursor_eq, opened_level, opened_parts⟩ :=
        trace_start before inside tag_named nonempty
      obtain ⟨inner, inner_eq, inner_stack, inner_within, inner_level, inner_parts⟩ :=
        @content_ih opened (index + tag.bytes.length) content_named (by rw [cursor_eq]) (by omega)
      obtain ⟨closed, stop_eq, closed_cursor, closed_level, closed_parts⟩ :=
        @trace_stop inner (index + tag.bytes.length + content.bytes.length) tag.name index
          traced.cursor.stack (by rw [inner_stack, cursor_eq]) inner_within (by omega) tag_named
          endTag.length
      obtain ⟨next, traced_eq, stack_eq, within, level_eq, parts_eq⟩ :=
        @rest_ih closed (index + tag.bytes.length + content.bytes.length + endTag.length)
          rest_named (by rw [closed_cursor]) (by omega)
      refine ⟨next, ?_, by rw [stack_eq, closed_cursor], ?_, by omega, ?_⟩
      · simp only [Content.marks, List.map_cons, List.map_append]
        exact Execution.run_cons.mpr ⟨opened, start_eq, Execution.run_append.mpr ⟨inner, inner_eq,
          Execution.run_cons.mpr ⟨closed, stop_eq, traced_eq⟩⟩⟩
      · simp only [Content.bytes, List.length_append]
        omega
      · rw [parts_eq, closed_parts, inner_parts, opened_parts, List.append_assoc, List.append_assoc]
        congr 1
        rw [show closed.outline.level = traced.outline.level by omega, inner_level, opened_level,
          if_neg (show ¬ traced.outline.level + 1 = 1 by omega)]
        by_cases first : traced.outline.level = 1
        · simp [first, Content.items, Item.span, Item.stop, Nat.add_assoc]
        · simp [first, show ¬ traced.outline.level + 1 = 2 by omega]

/-- The parts of a stream are its start tag, the children of the root, and its end tag. -/
theorem Document.run_trace (document : Document) (root_name : isStream document.root.name = true)
    (root_bytes : document.root.bytes ≠ [])
    (named : document.content.AllTags fun tag => isNamespaced tag.name = true ∧ tag.bytes ≠ []) :
    ∃ final, Execution.run trace Traced.initial (document.marks.map Prod.snd) = some final ∧
      final.cursor.stack = [] ∧
      final.outline.parts.map Part.span = document.items.map Item.span := by
  have root_named := isNamespaced_of_isStream root_name
  obtain ⟨opened, start_eq, cursor_eq, opened_level, opened_parts⟩ :
      ∃ opened, trace Traced.initial (.start document.root.name document.root.attr
          document.prolog.length document.root.bytes.length) = some opened ∧
        opened.cursor = { stack := [⟨document.root.name, document.prolog.length⟩]
                          position := document.inner } ∧
        opened.outline.level = 1 ∧
        opened.outline.parts.map Part.span = [⟨document.prolog.length, document.inner⟩] := by
    refine ⟨_, trace_of_follow root_named (follow_start (Nat.zero_le _) root_bytes), rfl, rfl, ?_⟩
    simp [Outline.next, Traced.initial, Outline.initial, root_name, Part.span, Document.inner]
  obtain ⟨inner, inner_eq, inner_stack, inner_within, inner_level, inner_parts⟩ :=
    @Content.run_trace opened document.inner document.content named (by rw [cursor_eq])
      (by omega)
  rw [opened_level] at inner_level inner_parts
  have followed : follow inner.cursor
      (.stop document.root.name document.outer document.endTag.length) =
        some { stack := [], position := document.outer + document.endTag.length } :=
    follow_stop (inner_stack.trans (congrArg Cursor.stack cursor_eq)) inner_within _
  simp only [Document.marks, List.map_cons, List.map_append, List.map_nil]
  refine ⟨_, Execution.run_cons.mpr ⟨opened, start_eq, Execution.run_append.mpr ⟨inner, inner_eq,
    Execution.run_cons.mpr ⟨_, trace_of_follow root_named followed, rfl⟩⟩⟩, rfl, ?_⟩
  simp [Outline.next, inner_level, inner_parts, opened_parts, root_name, Document.items,
    Item.span, Item.stop, Part.span, Document.inner]

end

/-- A message in a stream with a start tag of 85 bytes, with an empty-element tag of the given name
and length in its body. -/
def messageCallbacks (payload : List UInt8) (count : Nat) : List Callback :=
  let stream := text "http://etherx.jabber.org/streams" ++ [0xFF] ++ text "stream"
  let message := text "jabber:client" ++ [0xFF] ++ text "message"
  [.start stream [] 0 85, .start message [] 85 9, .start payload [] 94 count,
    .stop payload (94 + count) 0, .stop message (94 + count) 10]

/-- The body is `<body/>`. -/
theorem level_countsDepth_body : Execution.Always trace Traced.CountsDepth Traced.initial
    (messageCallbacks (text "jabber:client" ++ [0xFF] ++ text "body") 7) := by
  obtain ⟨final, execution⟩ : ∃ final, Execution.run trace Traced.initial
      (messageCallbacks (text "jabber:client" ++ [0xFF] ++ text "body") 7) = some final :=
    Option.isSome_iff_exists.mp (by decide +kernel)
  exact (level_countsDepth_iff execution).mpr (by decide +kernel)

/-- In a message with the payload `<stream xmlns='urn:video'/>`, the level is minus one at the end,
where the root is open, and instead of the message the start tag of the payload is queued, and an
empty end tag. -/
theorem level_not_countsDepth_stream :
    ∃ final, Execution.run trace Traced.initial
        (messageCallbacks (text "urn:video" ++ [0xFF] ++ text "stream") 27) = some final ∧
      final.framer.level = -1 ∧ final.cursor.stack.length = 1 ∧
      final.framer.frames = [⟨0, 85⟩, ⟨94, 27⟩, ⟨121, 0⟩] ∧
      final.outline.parts.map Part.exact = [⟨0, 85⟩, ⟨85, 46⟩] ∧
      ¬ Execution.Always trace Traced.CountsDepth Traced.initial
        (messageCallbacks (text "urn:video" ++ [0xFF] ++ text "stream") 27) := by
  obtain ⟨final, execution, level_eq, depth_eq, frames_eq, parts_eq⟩ :
      ∃ final, Execution.run trace Traced.initial
          (messageCallbacks (text "urn:video" ++ [0xFF] ++ text "stream") 27) = some final ∧
        final.framer.level = -1 ∧ final.cursor.stack.length = 1 ∧
        final.framer.frames = [⟨0, 85⟩, ⟨94, 27⟩, ⟨121, 0⟩] ∧
        final.outline.parts.map Part.exact = [⟨0, 85⟩, ⟨85, 46⟩] := by
    decide +kernel
  refine ⟨final, execution, level_eq, depth_eq, frames_eq, parts_eq, fun always => ?_⟩
  have counted := (always _ [] final (by simp) execution).level_eq
  rw [level_eq, depth_eq] at counted
  exact absurd counted (by decide)

end Jabsocket
