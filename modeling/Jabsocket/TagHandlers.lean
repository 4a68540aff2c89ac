import Jabsocket.Framer
import Jabsocket.XmlStream

/-!
# From tags to frames

What the handlers of the framer queue for the first bytes of a stream.  The level counts the open
elements; a child of the root is queued when its end brings the level back to that of the root.
-/

namespace Jabsocket

theorem toInt32_natCast {value : Nat} (small : value < 2 ^ 31) : toInt32 (value : Int) = value := by
  unfold toInt32
  exact Int.bmod_eq_of_le (by omega) (by omega)

theorem toSize_natCast {value : Nat} (small : value < 2 ^ 31) : toSize (value : Int) = value := by
  unfold toSize
  omega

/-- An element is in a namespace and is not named `stream`. -/
def Tag.IsStanza (tag : Tag) : Prop :=
  ∃ name, bareName tag.name = some name ∧ name ≠ text "stream"

/-- An element is not named `stream`, or in no namespace. -/
def Tag.IsInner (tag : Tag) : Prop :=
  bareName tag.name ≠ some (text "stream")

theorem Tag.IsStanza.isInner {tag : Tag} (stanza : tag.IsStanza) : tag.IsInner := by
  obtain ⟨name, name_eq, other⟩ := stanza
  simpa [Tag.IsInner, name_eq] using other

/-- The root is named `stream`, and no other element is. -/
structure Document.IsStream (document : Document) : Prop where
  root_name : bareName document.root.name = some (text "stream")
  content_names : document.content.AllTags Tag.IsStanza

/-- What the framer takes for the position of a child of the root, when it remembers the position
of an earlier one. -/
def Tag.childStart (tag : Tag) (stale index : Nat) : Nat :=
  if (bareName tag.name).isSome then index else stale

theorem Tag.childStart_le (tag : Tag) {stale index : Nat} (ordered : stale ≤ index) :
    tag.childStart stale index ≤ index := by
  unfold Tag.childStart
  split_ifs
  · exact Nat.le_refl _
  · exact ordered

/-- Consecutive bytes of a document by their positions. -/
structure Span where
  start : Nat
  stop : Nat
  deriving DecidableEq, Repr

/-- What the framer takes for the children of the root in content at a position. -/
def Content.spans : Nat → Nat → Content → List Span
  | _, _, nil => []
  | stale, index, other bytes rest => rest.spans stale (index + bytes.length)
  | stale, index, empty tag rest =>
      let start := tag.childStart stale index
      let stop := index + tag.bytes.length
      ⟨start, stop⟩ :: rest.spans start stop
  | stale, index, element tag content endTag rest =>
      let start := tag.childStart stale index
      let stop := index + tag.bytes.length + content.bytes.length + endTag.length
      ⟨start, stop⟩ :: rest.spans start stop

/-- What the framer takes for the parts of a document.  The tags of a root without a namespace are
not among them. -/
def Document.spans (document : Document) : List Span :=
  if (bareName document.root.name).isSome then
    ⟨document.prolog.length, document.inner⟩ ::
      (document.content.spans 0 document.inner ++
        [⟨document.outer, document.outer + document.endTag.length⟩])
  else document.content.spans 0 document.inner

/-! ## Handler calls -/

/-- The framer after the handler calls for the first bytes of a document. -/
def framerAfter (framer : Framer) (marks : List Mark) (count : Nat) : Framer :=
  ((marks.filter fun mark => mark.1 ≤ count).map Prod.snd).foldl framerHandle framer

theorem framerAfter_append (framer : Framer) (first second : List Mark) (count : Nat) :
    framerAfter framer (first ++ second) count =
      framerAfter (framerAfter framer first count) second count := by
  simp [framerAfter, List.filter_append, List.map_append, List.foldl_append]

theorem framerAfter_cons (framer : Framer) {mark : Mark} (marks : List Mark) {count : Nat}
    (reached : mark.1 ≤ count) :
    framerAfter framer (mark :: marks) count =
      framerAfter (framerHandle framer mark.2) marks count := by
  simp [framerAfter, reached]

/-- Nothing is handled before its bytes have arrived. -/
theorem framerAfter_of_lt (framer : Framer) {marks : List Mark} {count : Nat}
    (unreached : ∀ mark ∈ marks, count < mark.1) : framerAfter framer marks count = framer := by
  have none_left : (marks.filter fun mark => mark.1 ≤ count) = [] := by
    simpa using unreached
  rw [framerAfter, none_left]
  rfl

/-- An empty-element tag and what follows it. -/
theorem framerAfter_empty (framer : Framer) (tag : Tag) (rest : Content) (index count : Nat) :
    framerAfter framer ((Content.empty tag rest).marks index) count =
      if index + tag.bytes.length ≤ count then
        framerAfter
          (framerEnd (framerStart framer tag.name index tag.bytes.length) tag.name
            (index + tag.bytes.length) 0)
          (rest.marks (index + tag.bytes.length)) count
      else framer := by
  simp only [Content.marks]
  split_ifs with reached
  · rw [framerAfter_cons _ _ reached, framerAfter_cons _ _ reached]
    rfl
  · refine framerAfter_of_lt framer fun mark member => ?_
    rcases List.mem_cons.mp member with rfl | member
    · exact Nat.lt_of_not_le reached
    rcases List.mem_cons.mp member with rfl | later
    · exact Nat.lt_of_not_le reached
    · exact Nat.lt_of_lt_of_le (Nat.lt_of_not_le reached) (Content.le_of_mem_marks later)

/-- An element and what follows it. -/
theorem framerAfter_element (framer : Framer) (name : List UInt8)
    (attr : List (List UInt8 × List UInt8)) (content : Content) (later : List Mark)
    (index length endLength count : Nat)
    (behind : ∀ mark ∈ later, index + length + content.bytes.length + endLength ≤ mark.1) :
    framerAfter framer
        ((index + length, .start name attr index length) ::
          (content.marks (index + length) ++
            (index + length + content.bytes.length + endLength,
              .stop name (index + length + content.bytes.length) endLength) :: later)) count =
      if index + length ≤ count then
        if index + length + content.bytes.length + endLength ≤ count then
          framerAfter
            (framerEnd
              (framerAfter (framerStart framer name index length)
                (content.marks (index + length)) count)
              name (index + length + content.bytes.length) endLength)
            later count
        else
          framerAfter (framerStart framer name index length) (content.marks (index + length)) count
      else framer := by
  split_ifs with opened closed
  · rw [framerAfter_cons _ _ opened, framerAfter_append, framerAfter_cons _ _ closed]
    rfl
  · rw [framerAfter_cons _ _ opened, framerAfter_append]
    refine framerAfter_of_lt _ fun mark member => ?_
    rcases List.mem_cons.mp member with rfl | member
    · exact Nat.lt_of_not_le closed
    · exact Nat.lt_of_lt_of_le (Nat.lt_of_not_le closed) (behind mark member)
  · refine framerAfter_of_lt framer fun mark member => ?_
    have unopened := Nat.lt_of_not_le opened
    rcases List.mem_cons.mp member with rfl | member
    · exact unopened
    rcases List.mem_append.mp member with inside | member
    · exact Nat.lt_of_lt_of_le unopened (Content.le_of_mem_marks inside)
    rcases List.mem_cons.mp member with rfl | member
    · dsimp only
      omega
    · have bound := behind mark member
      omega

section

variable {framer : Framer} {tag : Tag}

theorem Tag.IsInner.start_deep (inner : tag.IsInner) (deep : 2 ≤ framer.level)
    (index count : Nat) :
    framerStart framer tag.name index count = { framer with level := framer.level + 1 } := by
  have below : framer.level ≠ 1 := by omega
  unfold Tag.IsInner at inner
  cases name_eq : bareName tag.name with
  | none => simp [framerStart, name_eq]
  | some name =>
      have other : name ≠ text "stream" := by simpa [name_eq] using inner
      simp [framerStart, name_eq, other, below]

theorem Tag.IsInner.end_deep (inner : tag.IsInner) (deep : 3 ≤ framer.level)
    (index count : Nat) :
    framerEnd framer tag.name index count = { framer with level := framer.level - 1 } := by
  have below : framer.level - 1 ≠ 1 := by omega
  unfold Tag.IsInner at inner
  simp [framerEnd, inner, below]

/-- A child of the root is remembered only when it is in a namespace. -/
theorem Tag.IsInner.start_child (inner : tag.IsInner) (child : framer.level = 1)
    {stale index : Nat} (stale_eq : framer.index = stale) (small : index < 2 ^ 31) (count : Nat) :
    framerStart framer tag.name index count =
      { framer with level := 2, index := tag.childStart stale index } := by
  unfold Tag.IsInner at inner
  cases name_eq : bareName tag.name with
  | none => simp [framerStart, Tag.childStart, name_eq, child, ← stale_eq]
  | some name =>
      have other : name ≠ text "stream" := by simpa [name_eq] using inner
      simp [framerStart, Tag.childStart, name_eq, other, child, toInt32_natCast small]

theorem framerEnd_child (name : List UInt8) (child : framer.level = 2) {start index count : Nat}
    (start_eq : framer.index = start) (ordered : start ≤ index) (small : index + count < 2 ^ 31) :
    framerEnd framer name index count =
      { framer with
        level := 1
        frames := framer.frames ++
          [{ index := start, size := (index + count - start : Nat) }] } := by
  have stop_eq : toInt32 ((index : Int) + count) = (index + count : Nat) := by
    rw [← Int.natCast_add, toInt32_natCast small]
  have size_eq : ((index + count : Nat) : Int) - start = (index + count - start : Nat) := by
    omega
  simp only [framerEnd, child, framerAddFrame, stop_eq, start_eq, size_eq]
  rw [if_pos (by decide : (2 : Int) - 1 = 1), toInt32_natCast (by omega),
    toInt32_natCast (by omega)]
  rfl

theorem framerStart_stream {name : List UInt8} (name_eq : bareName name = some (text "stream"))
    {index count : Nat} (small : index + count < 2 ^ 31) :
    framerStart framer name index count =
      { framer with
        level := 1
        frames := framer.frames ++ [{ index := index, size := count }] } := by
  simp [framerStart, name_eq, framerAddFrame, toInt32_natCast (show index < 2 ^ 31 by omega),
    toInt32_natCast (show count < 2 ^ 31 by omega)]

theorem framerEnd_stream {name : List UInt8} (name_eq : bareName name = some (text "stream"))
    (root : framer.level = 1) {index count : Nat} (small : index + count < 2 ^ 31) :
    framerEnd framer name index count =
      { framer with
        level := 0
        frames := framer.frames ++ [{ index := index, size := count }] } := by
  simp [framerEnd, name_eq, root, framerAddFrame, toInt32_natCast (show index < 2 ^ 31 by omega),
    toInt32_natCast (show count < 2 ^ 31 by omega)]

end

theorem Content.AllTags.imp {condition other : Tag → Prop}
    (weaker : ∀ tag, condition tag → other tag) {content : Content}
    (all : content.AllTags condition) : content.AllTags other := by
  induction content with
  | nil => trivial
  | other bytes rest ih => exact ih all
  | empty tag rest ih => exact ⟨weaker tag all.1, ih all.2⟩
  | element tag content endTag rest content_ih rest_ih =>
      exact ⟨weaker tag all.1, content_ih all.2.1, rest_ih all.2.2⟩

/-- Inside a child of the root, only the level changes. -/
theorem Content.framerAfter_deep (content : Content) (named : content.AllTags Tag.IsInner)
    {framer : Framer} (deep : 2 ≤ framer.level) (index count : Nat) :
    ∃ level, framer.level ≤ level ∧
      (index + content.bytes.length ≤ count → level = framer.level) ∧
      framerAfter framer (content.marks index) count = { framer with level } := by
  induction content generalizing index framer with
  | nil => exact ⟨framer.level, Int.le_refl _, fun _ => rfl, rfl⟩
  | other bytes rest ih =>
      obtain ⟨level, above, complete, outcome⟩ := ih named deep (index + bytes.length)
      refine ⟨level, above, fun reached => complete ?_, outcome⟩
      simpa [Content.bytes, Nat.add_assoc] using reached
  | empty tag rest ih =>
      obtain ⟨inner, rest_named⟩ := named
      rw [framerAfter_empty]
      split_ifs with reached
      · rw [inner.start_deep deep, inner.end_deep (by dsimp only; omega)]
        simp only [Int.add_sub_cancel]
        obtain ⟨level, above, complete, outcome⟩ :=
          ih rest_named deep (index + tag.bytes.length)
        refine ⟨level, above, fun all => complete ?_, outcome⟩
        simpa [Content.bytes, Nat.add_assoc] using all
      · exact ⟨framer.level, Int.le_refl _, fun _ => rfl, rfl⟩
  | element tag content endTag rest content_ih rest_ih =>
      obtain ⟨inner, content_named, rest_named⟩ := named
      simp only [marks]
      rw [framerAfter_element _ _ _ _ _ _ _ _ _ fun _ => Content.le_of_mem_marks,
        inner.start_deep deep]
      have inside_deep : 2 ≤ ({ framer with level := framer.level + 1 } : Framer).level := by
        dsimp only
        omega
      obtain ⟨level, above, complete, outcome⟩ :=
        content_ih content_named inside_deep (index + tag.bytes.length)
      rw [outcome]
      dsimp only at above complete ⊢
      split_ifs with opened closed
      · obtain rfl := complete (by omega)
        rw [inner.end_deep (by dsimp only; omega)]
        simp only [Int.add_sub_cancel]
        obtain ⟨level, above, complete, outcome⟩ := rest_ih rest_named deep
          (index + tag.bytes.length + content.bytes.length + endTag.length)
        refine ⟨level, above, fun all => complete ?_, outcome⟩
        simpa [Content.bytes, Nat.add_assoc] using all
      · refine ⟨level, by omega, fun all => absurd ?_ closed, rfl⟩
        simp only [Content.bytes, List.length_append] at all
        omega
      · exact ⟨framer.level, Int.le_refl _, fun _ => rfl, rfl⟩

/-- A frame in the queue for a part of the document. -/
def Span.queued (span : Span) : QueuedFrame :=
  { index := span.start, size := (span.stop - span.start : Nat) }

theorem queued_cons {span : Span} {spans : List Span} {count : Nat} (reached : span.stop ≤ count)
    (frames : List QueuedFrame) :
    frames ++ ((span :: spans).filter fun span => span.stop ≤ count).map Span.queued =
      (frames ++ [span.queued]) ++
        (spans.filter fun span => span.stop ≤ count).map Span.queued := by
  simp [reached]

theorem Content.le_stop_of_mem_spans {content : Content} {stale index : Nat} {span : Span}
    (member : span ∈ content.spans stale index) : index ≤ span.stop := by
  induction content generalizing stale index with
  | nil => simp [spans] at member
  | other bytes rest ih => exact Nat.le_trans (Nat.le_add_right _ _) (ih member)
  | empty tag rest ih =>
      rcases List.mem_cons.mp member with rfl | later
      · exact Nat.le_add_right _ _
      · exact Nat.le_trans (Nat.le_add_right _ _) (ih later)
  | element tag content endTag rest content_ih rest_ih =>
      rcases List.mem_cons.mp member with rfl | later
      · dsimp only
        omega
      · have bound := rest_ih later
        omega

theorem Content.spans_filter_of_lt (content : Content) (stale : Nat) {index count : Nat}
    (unreached : count < index) :
    ((content.spans stale index).filter fun span => span.stop ≤ count) = [] := by
  refine List.filter_eq_nil_iff.mpr fun span member => ?_
  simpa using Nat.lt_of_lt_of_le unreached (Content.le_stop_of_mem_spans member)

/-- While a child is incomplete, none of the later ones is complete. -/
theorem Content.spans_filter_cons_of_lt (rest : Content) {span : Span} {count : Nat}
    (incomplete : ¬ span.stop ≤ count) :
    ((span :: rest.spans span.start span.stop).filter fun span => span.stop ≤ count) = [] := by
  rw [List.filter_cons_of_neg (by simpa using incomplete),
    rest.spans_filter_of_lt _ (Nat.lt_of_not_le incomplete)]

/-- The children of the root are queued as they are completed. -/
theorem Content.framerAfter_children (content : Content) (named : content.AllTags Tag.IsInner)
    {framer : Framer} (child : framer.level = 1) {stale index : Nat}
    (stale_eq : framer.index = stale) (ordered : stale ≤ index) {count : Nat}
    (small : count < 2 ^ 31) :
    ∃ level start, (index + content.bytes.length ≤ count → level = 1) ∧
      framerAfter framer (content.marks index) count =
        { framer with
          level
          index := start
          frames := framer.frames ++
            ((content.spans stale index).filter fun span => span.stop ≤ count).map
              Span.queued } := by
  induction content generalizing stale index framer with
  | nil => exact ⟨framer.level, framer.index, fun _ => child, by simp [spans, framerAfter, marks]⟩
  | other bytes rest ih =>
      obtain ⟨level, start, complete, outcome⟩ := @ih named framer child stale
        (index + bytes.length) stale_eq (by omega)
      refine ⟨level, start, fun reached => complete ?_, outcome⟩
      simpa [Content.bytes, Nat.add_assoc] using reached
  | empty tag rest ih =>
      obtain ⟨inner, rest_named⟩ := named
      have start_le := tag.childStart_le ordered
      rw [framerAfter_empty, spans]
      split_ifs with reached
      · rw [inner.start_child child stale_eq (by omega),
          framerEnd_child tag.name rfl rfl (by omega) (by omega), queued_cons reached]
        obtain ⟨level, start, complete, outcome⟩ := @ih rest_named
          { framer with
            level := 1
            index := tag.childStart stale index
            frames := framer.frames ++
              [(⟨tag.childStart stale index, index + tag.bytes.length⟩ : Span).queued] } rfl
          (tag.childStart stale index) (index + tag.bytes.length) rfl (by omega)
        refine ⟨level, start, fun all => complete ?_, outcome⟩
        simpa [Content.bytes, Nat.add_assoc] using all
      · rw [rest.spans_filter_cons_of_lt reached]
        exact ⟨framer.level, framer.index, fun _ => child, by simp⟩
  | element tag content endTag rest content_ih rest_ih =>
      obtain ⟨inner, content_named, rest_named⟩ := named
      have start_le := tag.childStart_le ordered
      simp only [marks, spans]
      rw [framerAfter_element _ _ _ _ _ _ _ _ _ fun _ => Content.le_of_mem_marks]
      generalize start_eq : tag.childStart stale index = start at start_le
      generalize stop_eq :
        index + tag.bytes.length + content.bytes.length + endTag.length = stop
      obtain ⟨level, above, complete, outcome⟩ := @framerAfter_deep content content_named
        { framer with level := 2, index := start } (Int.le_refl 2) (index + tag.bytes.length) count
      split_ifs with opened closed
      · rw [inner.start_child child stale_eq (by omega), start_eq, outcome]
        obtain rfl := complete (by omega)
        rw [framerEnd_child tag.name rfl rfl (by omega) (by omega), stop_eq, queued_cons closed]
        obtain ⟨level, last, complete, outcome⟩ := @rest_ih rest_named
          { framer with
            level := 1
            index := start
            frames := framer.frames ++ [(⟨start, stop⟩ : Span).queued] } rfl
          start stop rfl (by omega)
        refine ⟨level, last, fun all => complete ?_, outcome⟩
        simpa [Content.bytes, ← stop_eq, Nat.add_assoc] using all
      · rw [inner.start_child child stale_eq (by omega), start_eq, outcome,
          rest.spans_filter_cons_of_lt closed]
        refine ⟨level, start, fun all => absurd ?_ closed, by simp⟩
        simp only [Content.bytes, List.length_append] at all
        omega
      · rw [rest.spans_filter_cons_of_lt (by dsimp only; omega)]
        exact ⟨framer.level, framer.index, fun _ => child, by simp⟩

/-- The tags of a root without a namespace only change the level. -/
theorem framerStart_unnamed {framer : Framer} {name : List UInt8} (name_eq : bareName name = none)
    (index count : Nat) :
    framerStart framer name index count = { framer with level := framer.level + 1 } := by
  simp [framerStart, name_eq]

theorem framerEnd_unnamed {framer : Framer} {name : List UInt8} (name_eq : bareName name = none)
    (root : framer.level = 1) (index count : Nat) :
    framerEnd framer name index count = { framer with level := 0 } := by
  simp [framerEnd, name_eq, root]

/-- The handler calls for a document: those for its start tag, its content and its end tag. -/
theorem Document.framerAfter_eq (document : Document) (count : Nat) :
    framerAfter framerCreate document.marks count =
      if document.inner ≤ count then
        if document.outer + document.endTag.length ≤ count then
          framerEnd
            (framerAfter
              (framerStart framerCreate document.root.name document.prolog.length
                document.root.bytes.length)
              (document.content.marks document.inner) count)
            document.root.name document.outer document.endTag.length
        else
          framerAfter
            (framerStart framerCreate document.root.name document.prolog.length
              document.root.bytes.length)
            (document.content.marks document.inner) count
      else framerCreate :=
  framerAfter_element framerCreate document.root.name document.root.attr document.content []
    document.prolog.length document.root.bytes.length document.endTag.length count
    (fun _ member => by cases member)

/-- The parts of a document are queued as they are completed. -/
theorem Document.frames_framerAfter {document : Document}
    (root_name : bareName document.root.name = some (text "stream") ∨
      bareName document.root.name = none)
    (content_names : document.content.AllTags Tag.IsInner) {count : Nat}
    (small : count < 2 ^ 31) :
    (framerAfter framerCreate document.marks count).frames =
      (document.spans.filter fun span => span.stop ≤ count).map Span.queued := by
  have outer_eq : document.outer = document.inner + document.content.bytes.length := rfl
  have inner_eq : document.inner = document.prolog.length + document.root.bytes.length := rfl
  have size_eq : document.inner - document.prolog.length = document.root.bytes.length := by omega
  rw [document.framerAfter_eq]
  rcases root_name with named | unnamed
  · obtain ⟨level, start, complete, outcome⟩ := @Content.framerAfter_children document.content
      content_names
      { framerCreate with
        level := 1
        frames := [{ index := document.prolog.length, size := document.root.bytes.length }] } rfl
      0 document.inner rfl (Nat.zero_le _) count small
    have opening : document.inner ≤ count →
        framerStart framerCreate document.root.name document.prolog.length
          document.root.bytes.length =
            { framerCreate with
              level := 1
              frames :=
                [{ index := document.prolog.length, size := document.root.bytes.length }] } :=
      fun opened => framerStart_stream named (Nat.lt_of_le_of_lt opened small)
    have spans_eq : document.spans =
        ⟨document.prolog.length, document.inner⟩ ::
          (document.content.spans 0 document.inner ++
            [⟨document.outer, document.outer + document.endTag.length⟩]) :=
      if_pos (by rw [named]; rfl)
    rw [spans_eq]
    split_ifs with opened closed
    · rw [opening opened, outcome, framerEnd_stream named (complete (by omega)) (by omega)]
      simp [opened, closed, Span.queued, size_eq]
    · rw [opening opened, outcome]
      simp [opened, closed, Span.queued, size_eq]
    · have none_left := document.content.spans_filter_of_lt 0 (Nat.lt_of_not_le opened)
      have unclosed : ¬ document.outer + document.endTag.length ≤ count := by omega
      simp [opened, unclosed, none_left, framerCreate]
  · obtain ⟨level, start, complete, outcome⟩ := @Content.framerAfter_children document.content
      content_names { framerCreate with level := 1 } rfl 0 document.inner rfl (Nat.zero_le _) count
      small
    have opening : framerStart framerCreate document.root.name document.prolog.length
        document.root.bytes.length = { framerCreate with level := 1 } :=
      framerStart_unnamed unnamed _ _
    have spans_eq : document.spans = document.content.spans 0 document.inner :=
      if_neg (by rw [unnamed]; simp)
    rw [spans_eq, opening, outcome]
    split_ifs with opened closed
    · rw [framerEnd_unnamed unnamed (complete (by omega))]
      rfl
    · rfl
    · rw [document.content.spans_filter_of_lt 0 (Nat.lt_of_not_le opened)]
      rfl

/-! ## Streams in which every element has a namespace -/

/-- A frame in the queue for an item. -/
def Item.queued (item : Item) : QueuedFrame :=
  { index := item.index, size := item.bytes.length }

/-- The positions of an item. -/
def Item.span (item : Item) : Span :=
  ⟨item.index, item.stop⟩

theorem Item.queued_span (item : Item) : item.span.queued = item.queued := by
  simp [Item.span, Span.queued, Item.queued, Item.stop]

/-- With namespaces, the framer takes every child of the root for what it is. -/
theorem Content.spans_eq_items (content : Content) (named : content.AllTags Tag.IsStanza)
    (stale index : Nat) : content.spans stale index = (content.items index).map Item.span := by
  have start_eq : ∀ {tag : Tag}, tag.IsStanza →
      ∀ stale index, tag.childStart stale index = index := by
    rintro tag ⟨name, name_eq, -⟩ stale index
    simp [Tag.childStart, name_eq]
  induction content generalizing stale index with
  | nil => rfl
  | other bytes rest ih => exact ih named stale _
  | empty tag rest ih =>
      simp only [spans, items, List.map_cons, start_eq named.1, ih named.2]
      rfl
  | element tag content endTag rest content_ih rest_ih =>
      have stop_eq : index + tag.bytes.length + content.bytes.length + endTag.length =
          index + (tag.bytes ++ (content.bytes ++ endTag)).length := by
        simp only [List.length_append]
        omega
      simp only [spans, items, List.map_cons, start_eq named.1, rest_ih named.2.2, stop_eq]
      rfl

/-- The items of a stream are queued as they are completed. -/
theorem Document.IsStream.framerAfter_marks {document : Document} (stream : document.IsStream)
    {count : Nat} (small : count < 2 ^ 31) :
    (framerAfter framerCreate document.marks count).frames =
      (document.items.filter fun item => item.stop ≤ count).map Item.queued := by
  have spans_eq : document.spans = document.items.map Item.span := by
    rw [Document.spans, if_pos (by rw [stream.root_name]; rfl),
      document.content.spans_eq_items stream.content_names, Document.items]
    simp [Item.span, Item.stop, Document.inner]
  rw [Document.frames_framerAfter (Or.inl stream.root_name)
    (stream.content_names.imp fun _ => Tag.IsStanza.isInner) small, spans_eq, List.filter_map,
    List.map_map]
  refine List.map_congr_left fun item _ => item.queued_span

end Jabsocket
