import Jabsocket.Framing

/-!
# Queued frames and the buffer

The framer remembers where a child of the root starts only when the child is in a namespace, but it
queues every child when it ends.  A child without a namespace is queued from the start of an earlier
one, over bytes which are in another frame or no longer in the buffer.
-/

namespace Jabsocket

/-! ## Spans in order -/

/-- Spans which lie one behind the other, the first not before a position. -/
def Ordered : Nat → List Span → Prop
  | _, [] => True
  | low, span :: spans => low ≤ span.start ∧ Ordered span.stop spans

/-- The position behind the last span. -/
def lastStop : Nat → List Span → Nat
  | low, [] => low
  | _, span :: spans => lastStop span.stop spans

theorem ordered_append {low : Nat} {first second : List Span} :
    Ordered low (first ++ second) ↔ Ordered low first ∧ Ordered (lastStop low first) second := by
  induction first generalizing low with
  | nil => simp [Ordered, lastStop]
  | cons span spans ih => rw [List.cons_append, Ordered, Ordered, lastStop, ih, and_assoc]

theorem lastStop_append (low : Nat) (first second : List Span) :
    lastStop low (first ++ second) = lastStop (lastStop low first) second := by
  induction first generalizing low with
  | nil => rfl
  | cons span spans ih => exact ih span.stop

theorem Ordered.mono {low high : Nat} {spans : List Span} (ordered : Ordered high spans)
    (lower : low ≤ high) : Ordered low spans := by
  cases spans with
  | nil => trivial
  | cons span spans => exact ⟨Nat.le_trans lower ordered.1, ordered.2⟩

theorem ordered_iff {low : Nat} {spans : List Span}
    (proper : ∀ span ∈ spans, span.start ≤ span.stop) :
    Ordered low spans ↔
      (∀ span ∈ spans, low ≤ span.start) ∧
        spans.Pairwise fun first second => first.stop ≤ second.start := by
  induction spans generalizing low with
  | nil => simp [Ordered]
  | cons span spans ih =>
      have span_proper := proper span List.mem_cons_self
      rw [Ordered, ih fun other member => proper other (List.mem_cons_of_mem _ member),
        List.pairwise_cons, List.forall_mem_cons]
      constructor
      · rintro ⟨first, behind, later⟩
        refine ⟨⟨first, fun other member => ?_⟩, behind, later⟩
        have := behind other member
        omega
      · rintro ⟨⟨first, -⟩, behind, later⟩
        exact ⟨first, behind, later⟩

/-! ## The children of the root -/

/-- A child of the root, with its position and the position behind it. -/
structure Child where
  tag : Tag
  index : Nat
  stop : Nat

/-- An element is in a namespace. -/
def Tag.Namespaced (tag : Tag) : Prop :=
  (bareName tag.name).isSome = true

instance (tag : Tag) : Decidable tag.Namespaced :=
  inferInstanceAs (Decidable (_ = true))

/-- The elements of content at a position, without what is inside them. -/
def Content.children : Nat → Content → List Child
  | _, nil => []
  | index, other bytes rest => rest.children (index + bytes.length)
  | index, empty tag rest =>
      let stop := index + tag.bytes.length
      ⟨tag, index, stop⟩ :: rest.children stop
  | index, element tag content endTag rest =>
      let stop := index + tag.bytes.length + content.bytes.length + endTag.length
      ⟨tag, index, stop⟩ :: rest.children stop

/-- What the framer takes for a list of children. -/
def childSpans : Nat → List Child → List Span
  | _, [] => []
  | stale, child :: children =>
      let start := child.tag.childStart stale child.index
      ⟨start, child.stop⟩ :: childSpans start children

/-- Children which lie one behind the other, the first not before a position. -/
def Consecutive : Nat → List Child → Prop
  | _, [] => True
  | low, child :: children =>
      low ≤ child.index ∧ child.index < child.stop ∧ Consecutive child.stop children

theorem Content.spans_eq_childSpans (content : Content) (stale index : Nat) :
    content.spans stale index = childSpans stale (content.children index) := by
  induction content generalizing stale index with
  | nil => rfl
  | other bytes rest ih => exact ih stale _
  | empty tag rest ih => simp only [spans, children, childSpans, ih]
  | element tag content endTag rest content_ih rest_ih =>
      simp only [spans, children, childSpans, rest_ih]

theorem Consecutive.mono {low high : Nat} {children : List Child}
    (consecutive : Consecutive high children) (lower : low ≤ high) : Consecutive low children := by
  cases children with
  | nil => trivial
  | cons child children => exact ⟨Nat.le_trans lower consecutive.1, consecutive.2⟩

theorem Content.consecutive_children (content : Content)
    (nonempty : content.AllTags fun tag => tag.bytes ≠ []) (index : Nat) :
    Consecutive index (content.children index) := by
  induction content generalizing index with
  | nil => trivial
  | other bytes rest ih => exact (ih nonempty _).mono (Nat.le_add_right _ _)
  | empty tag rest ih =>
      have positive := List.length_pos_of_ne_nil nonempty.1
      refine ⟨Nat.le_refl _, ?_, ih nonempty.2 _⟩
      dsimp only
      omega
  | element tag content endTag rest content_ih rest_ih =>
      have positive := List.length_pos_of_ne_nil nonempty.1
      refine ⟨Nat.le_refl _, ?_, rest_ih nonempty.2.2 _⟩
      dsimp only
      omega

theorem Consecutive.lt_stop {low : Nat} {children : List Child}
    (consecutive : Consecutive low children) {child : Child} (member : child ∈ children) :
    low < child.stop := by
  induction children generalizing low with
  | nil => cases member
  | cons first children ih =>
      obtain ⟨behind, positive, later⟩ := consecutive
      rcases List.mem_cons.mp member with rfl | member
      · omega
      · have := ih later member
        omega

/-- Some of the children. -/
theorem Consecutive.filter {low : Nat} {children : List Child}
    (consecutive : Consecutive low children) (kept : Child → Bool) :
    Consecutive low (children.filter kept) := by
  induction children generalizing low with
  | nil => trivial
  | cons child children ih =>
      obtain ⟨behind, positive, later⟩ := consecutive
      rw [List.filter_cons]
      split_ifs
      · exact ⟨behind, positive, ih later⟩
      · exact (ih later).mono (by omega)

/-- The completed spans are those of the completed children. -/
theorem Consecutive.filter_childSpans {low : Nat} {children : List Child}
    (consecutive : Consecutive low children) (stale count : Nat) :
    ((childSpans stale children).filter fun span => span.stop ≤ count) =
      childSpans stale (children.filter fun child => child.stop ≤ count) := by
  induction children generalizing low stale with
  | nil => rfl
  | cons child children ih =>
      obtain ⟨-, -, later⟩ := consecutive
      rw [childSpans]
      by_cases complete : child.stop ≤ count
      · rw [List.filter_cons_of_pos (by simpa using complete),
          List.filter_cons_of_pos (by simpa using complete), childSpans, ih later]
      · have none_left : (children.filter fun child => child.stop ≤ count) = [] := by
          refine List.filter_eq_nil_iff.mpr fun other member => ?_
          have := later.lt_stop member
          simp only [decide_eq_true_eq]
          omega
        rw [List.filter_cons_of_neg (by simpa using complete),
          List.filter_cons_of_neg (by simpa using complete), ih later, none_left]
        rfl

/-- Behind an earlier frame, the spans are in order exactly when all children have namespaces. -/
theorem Consecutive.ordered_iff {low stale : Nat} {children : List Child}
    (consecutive : Consecutive low children) (taken : stale < low) :
    Ordered low (childSpans stale children) ↔ ∀ child ∈ children, child.tag.Namespaced := by
  induction children generalizing low stale with
  | nil => simp [childSpans, Ordered]
  | cons child children ih =>
      obtain ⟨behind, positive, later⟩ := consecutive
      rw [childSpans, Ordered, List.forall_mem_cons]
      by_cases named : child.tag.Namespaced
      · have start_eq : child.tag.childStart stale child.index = child.index := if_pos named
        rw [start_eq, ih later positive]
        simp [behind, named]
      · have start_eq : child.tag.childStart stale child.index = stale := if_neg named
        rw [start_eq]
        simp [named, Nat.not_le_of_lt taken]

/-- Without an earlier frame, the first child need not have one. -/
theorem Consecutive.ordered_first_iff {low : Nat} {children : List Child}
    (consecutive : Consecutive low children) :
    Ordered 0 (childSpans 0 children) ↔ ∀ child ∈ children.tail, child.tag.Namespaced := by
  cases children with
  | nil => simp [childSpans, Ordered]
  | cons child children =>
      obtain ⟨behind, positive, later⟩ := consecutive
      have start_le := child.tag.childStart_le (Nat.zero_le child.index)
      rw [childSpans, Ordered, later.ordered_iff (by omega)]
      simp

/-! ## Streams with and without namespaces -/

/-- The name of an element without its namespace. -/
def localName (el : List UInt8) : List UInt8 :=
  (bareName el).getD el

/-- A stream whose root is named `stream` and no other element is.  An empty-element tag as the root
is a root without content and with an empty end tag. -/
structure Document.IsXmlStream (document : Document) : Prop where
  root_name : localName document.root.name = text "stream"
  root_bytes : document.root.bytes ≠ []
  content_names : document.content.AllTags fun tag => localName tag.name ≠ text "stream"
  content_bytes : document.content.AllTags fun tag => tag.bytes ≠ []

/-- What the framer takes for the parts which are complete within the first bytes. -/
def Document.spansUpTo (document : Document) (count : Nat) : List Span :=
  document.spans.filter fun span => span.stop ≤ count

/-- The children of the root which are complete within the first bytes. -/
def Document.childrenUpTo (document : Document) (count : Nat) : List Child :=
  (document.content.children document.inner).filter fun child => child.stop ≤ count

/-- All complete children of the root have namespaces, but the first child of a root without a
namespace need not have one. -/
def Document.NamespacedUpTo (document : Document) (count : Nat) : Prop :=
  ∀ child ∈ if document.root.Namespaced then document.childrenUpTo count
      else (document.childrenUpTo count).tail,
    child.tag.Namespaced

instance (document : Document) (count : Nat) : Decidable (document.NamespacedUpTo count) :=
  inferInstanceAs (Decidable (∀ child ∈ (_ : List Child), child.tag.Namespaced))

section

variable {document : Document}

theorem Document.IsXmlStream.root_bareName (stream : document.IsXmlStream) :
    bareName document.root.name = some (text "stream") ∨ bareName document.root.name = none := by
  have root_name := stream.root_name
  unfold localName at root_name
  cases name_eq : bareName document.root.name with
  | none => exact Or.inr rfl
  | some name =>
      rw [name_eq, Option.getD_some] at root_name
      exact Or.inl (root_name ▸ rfl)

theorem Document.IsXmlStream.content_inner (stream : document.IsXmlStream) :
    document.content.AllTags Tag.IsInner := by
  refine stream.content_names.imp fun tag other named => other ?_
  rw [localName, named]
  rfl

theorem Content.stop_le_of_mem_children {content : Content} {index : Nat} {child : Child}
    (member : child ∈ content.children index) : child.stop ≤ index + content.bytes.length := by
  induction content generalizing index with
  | nil => simp [children] at member
  | other bytes rest ih =>
      have bound := ih member
      simp only [Content.bytes, List.length_append]
      omega
  | empty tag rest ih =>
      simp only [Content.bytes, List.length_append]
      rcases List.mem_cons.mp member with rfl | later
      · dsimp only
        omega
      · have bound := ih later
        omega
  | element tag content endTag rest content_ih rest_ih =>
      simp only [Content.bytes, List.length_append]
      rcases List.mem_cons.mp member with rfl | later
      · dsimp only
        omega
      · have bound := rest_ih later
        omega

theorem lastStop_childSpans_le {low stale bound : Nat} {children : List Child}
    (low_le : low ≤ bound) (within : ∀ child ∈ children, child.stop ≤ bound) :
    lastStop low (childSpans stale children) ≤ bound := by
  induction children generalizing low stale with
  | nil => exact low_le
  | cons child children ih =>
      exact ih (within child List.mem_cons_self)
        fun other member => within other (List.mem_cons_of_mem _ member)

/-- The spans of a stream are in order exactly when its children have namespaces. -/
theorem Document.IsXmlStream.ordered_iff (stream : document.IsXmlStream) (count : Nat) :
    Ordered 0 (document.spansUpTo count) ↔ document.NamespacedUpTo count := by
  have consecutive := document.content.consecutive_children stream.content_bytes document.inner
  have complete_spans := consecutive.filter_childSpans 0 count
  have complete := consecutive.filter fun child => child.stop ≤ count
  rw [← document.content.spans_eq_childSpans] at complete_spans
  have root_positive := List.length_pos_of_ne_nil stream.root_bytes
  have inner_positive : 0 < document.inner := by
    unfold Document.inner
    omega
  unfold Document.spansUpTo Document.NamespacedUpTo Document.spans
  by_cases named : document.root.Namespaced
  · rw [if_pos named, if_pos (show (bareName document.root.name).isSome = true from named)]
    have last_le : lastStop document.inner (childSpans 0 (document.childrenUpTo count)) ≤
        document.outer := by
      refine lastStop_childSpans_le (Nat.le_add_right _ _) fun child member => ?_
      exact Content.stop_le_of_mem_children (List.mem_filter.mp member).1
    rw [List.filter_cons, List.filter_append, complete_spans]
    split_ifs with opened
    · rw [Ordered, ordered_append, complete.ordered_iff inner_positive]
      have behind : Ordered
          (lastStop document.inner (childSpans 0 (document.childrenUpTo count)))
          ([(⟨document.outer, document.outer + document.endTag.length⟩ : Span)].filter
            fun span => span.stop ≤ count) := by
        rw [List.filter_cons, List.filter_nil]
        split_ifs
        · exact ⟨last_le, trivial⟩
        · trivial
      exact ⟨fun spans => spans.2.1, fun children => ⟨Nat.zero_le _, children, behind⟩⟩
    · have none_left : document.childrenUpTo count = [] := by
        refine List.filter_eq_nil_iff.mpr fun child member => ?_
        have := consecutive.lt_stop member
        simp only [decide_eq_true_eq] at opened ⊢
        omega
      have unclosed : ¬ document.outer + document.endTag.length ≤ count := by
        have outer_eq : document.outer = document.inner + document.content.bytes.length := rfl
        simp only [decide_eq_true_eq] at opened
        omega
      unfold Document.childrenUpTo at none_left
      simp [none_left, childSpans, unclosed, Ordered, Document.childrenUpTo]
  · rw [if_neg named, if_neg (show ¬ (bareName document.root.name).isSome = true from named),
      complete_spans]
    exact complete.ordered_first_iff

theorem Consecutive.mem_childSpans {low stale : Nat} {children : List Child}
    (consecutive : Consecutive low children) (stale_le : stale ≤ low) {span : Span}
    (member : span ∈ childSpans stale children) :
    span.start ≤ span.stop ∧ ∃ child ∈ children, span.stop = child.stop := by
  induction children generalizing low stale with
  | nil => cases member
  | cons child children ih =>
      obtain ⟨behind, positive, later⟩ := consecutive
      have start_le : child.tag.childStart stale child.index ≤ child.index :=
        child.tag.childStart_le (Nat.le_trans stale_le behind)
      rcases List.mem_cons.mp member with rfl | member
      · exact ⟨by dsimp only; omega, child, List.mem_cons_self, rfl⟩
      · obtain ⟨proper, other, other_member, stop_eq⟩ := ih later (by omega) member
        exact ⟨proper, other, List.mem_cons_of_mem _ other_member, stop_eq⟩

theorem Consecutive.sorted_childSpans {low stale : Nat} {children : List Child}
    (consecutive : Consecutive low children) (stale_le : stale ≤ low) :
    (childSpans stale children).Pairwise fun first second => first.stop ≤ second.stop := by
  induction children generalizing low stale with
  | nil => exact .nil
  | cons child children ih =>
      obtain ⟨behind, positive, later⟩ := consecutive
      have start_le : child.tag.childStart stale child.index ≤ child.index :=
        child.tag.childStart_le (Nat.le_trans stale_le behind)
      refine .cons (fun span member => ?_) (ih later (by omega))
      obtain ⟨-, other, other_member, stop_eq⟩ := later.mem_childSpans (by omega) member
      rw [stop_eq]
      exact Nat.le_of_lt (later.lt_stop other_member)

/-- The spans of a stream end one behind the other, whatever they begin with. -/
theorem Document.IsXmlStream.spans_sorted (stream : document.IsXmlStream) :
    (∀ span ∈ document.spans, span.start ≤ span.stop) ∧
      document.spans.Pairwise fun first second => first.stop ≤ second.stop := by
  have consecutive := document.content.consecutive_children stream.content_bytes document.inner
  have sorted := consecutive.sorted_childSpans (Nat.zero_le _)
  have within : ∀ span ∈ childSpans 0 (document.content.children document.inner),
      span.start ≤ span.stop ∧ document.inner ≤ span.stop ∧ span.stop ≤ document.outer := by
    intro span member
    obtain ⟨proper, child, child_member, stop_eq⟩ :=
      consecutive.mem_childSpans (Nat.zero_le _) member
    rw [stop_eq] at proper ⊢
    exact ⟨proper, Nat.le_of_lt (consecutive.lt_stop child_member),
      Content.stop_le_of_mem_children child_member⟩
  have outer_le : document.inner ≤ document.outer := Nat.le_add_right _ _
  have inner_eq : document.inner = document.prolog.length + document.root.bytes.length := rfl
  unfold Document.spans
  rw [document.content.spans_eq_childSpans]
  split_ifs
  · constructor
    · intro span member
      rcases List.mem_cons.mp member with rfl | member
      · dsimp only
        omega
      rcases List.mem_append.mp member with inside | last
      · exact (within span inside).1
      · rw [List.mem_singleton.mp last]
        exact Nat.le_add_right _ _
    · refine .cons (fun span member => ?_)
        (List.pairwise_append.mpr ⟨sorted, List.pairwise_singleton _ _, fun span inside last
          member => ?_⟩)
      · rcases List.mem_append.mp member with inside | last
        · exact (within span inside).2.1
        · rw [List.mem_singleton.mp last]
          exact Nat.le_trans outer_le (Nat.le_add_right _ _)
      · rw [List.mem_singleton.mp member]
        exact Nat.le_trans (within span inside).2.2 (Nat.le_add_right _ _)
  · exact ⟨fun span member => (within span member).1, sorted⟩

end

/-! ## The framer -/

/-- Number of bytes which `framer_get_frame2` removes in front of a frame. -/
def skippedBefore (framer : Framer) (index : Int) : Nat :=
  if index > framer.bufferIndex then toSize (toInt32 (index - framer.bufferIndex)) else 0

theorem skippedBefore_eq {framer : Framer} {offset index : Nat}
    (bufferIndex_eq : framer.bufferIndex = offset) (small : index < 2 ^ 31) :
    skippedBefore framer index = index - offset := by
  rw [skippedBefore, bufferIndex_eq]
  split_ifs with ahead
  · have delta_eq : (index : Int) - offset = (index - offset : Nat) := by omega
    rw [delta_eq, toInt32_natCast (by omega), toSize_natCast (by omega)]
  · omega

/-- The queued frames lie in the buffer, one behind the other, and taking the first one neither
copies nor removes more than there is. -/
structure Framer.InBounds (framer : Framer) : Prop where
  ordered : framer.frames.Pairwise fun first second => first.index + first.size ≤ second.index
  contained : ∀ frame ∈ framer.frames, 0 ≤ frame.size ∧ framer.bufferIndex ≤ frame.index ∧
    frame.index + frame.size ≤ framer.bufferIndex + framer.buffer.length
  removes : ∀ head ∈ framer.frames.head?,
    skippedBefore framer head.index ≤ framer.buffer.length ∧
      toSize head.size ≤ (framerSkipTo framer head.index).buffer.length

theorem Span.queued_stop {span : Span} (proper : span.start ≤ span.stop) :
    span.queued.index + span.queued.size = span.stop := by
  simp only [Span.queued]
  omega

/-- A framer whose queue has the frames of some spans is in bounds exactly when the spans lie in the
buffer, one behind the other. -/
theorem Framer.inBounds_iff_spans {framer : Framer} {held : List UInt8} {offset : Nat}
    {spans : List Span} (unlimited : framer.buffer.maxLength = 0)
    (buffer_eq : framer.buffer.data = held.drop offset)
    (bufferIndex_eq : framer.bufferIndex = offset) (covered : offset ≤ held.length)
    (frames_eq : framer.frames = spans.map Span.queued)
    (proper : ∀ span ∈ spans, span.start ≤ span.stop ∧ span.stop < 2 ^ 31) :
    framer.InBounds ↔
      (∀ span ∈ spans, offset ≤ span.start ∧ span.stop ≤ held.length) ∧
        spans.Pairwise fun first second => first.stop ≤ second.start := by
  have length_eq : offset + framer.buffer.length = held.length := by
    rw [Buffer.length, buffer_eq, List.length_drop]
    omega
  have queued_stop : ∀ span ∈ spans, span.queued.index + span.queued.size = span.stop :=
    fun span member => Span.queued_stop (proper span member).1
  constructor
  · rintro ⟨ordered, contained, -⟩
    rw [frames_eq] at ordered contained
    constructor
    · intro span member
      obtain ⟨-, behind, within⟩ := contained span.queued (List.mem_map_of_mem member)
      rw [bufferIndex_eq] at behind within
      rw [queued_stop span member, ← Int.natCast_add, length_eq] at within
      exact ⟨Int.ofNat_le.mp behind, Int.ofNat_le.mp within⟩
    · refine (List.pairwise_map.mp ordered).imp_of_mem fun {first second} member _ before => ?_
      rw [queued_stop first member] at before
      exact Int.ofNat_le.mp before
  · rintro ⟨within, ordered⟩
    refine ⟨?_, ?_, ?_⟩
    · rw [frames_eq]
      refine List.pairwise_map.mpr (ordered.imp_of_mem fun {first second} member _ before => ?_)
      rw [queued_stop first member]
      exact Int.ofNat_le.mpr before
    · rw [frames_eq, List.forall_mem_map]
      intro span member
      obtain ⟨behind, ends⟩ := within span member
      rw [queued_stop span member, bufferIndex_eq, ← Int.natCast_add, length_eq]
      exact ⟨Int.natCast_nonneg _, Int.ofNat_le.mpr behind, Int.ofNat_le.mpr ends⟩
    · intro head first
      rw [frames_eq] at first
      cases spans with
      | nil => simp at first
      | cons span spans =>
          obtain rfl : span.queued = head := by simpa using first
          obtain ⟨span_proper, small⟩ := proper span List.mem_cons_self
          obtain ⟨behind, ends⟩ := within span List.mem_cons_self
          obtain ⟨buffer, skipped, -, data_eq⟩ := framerSkipTo_eq unlimited buffer_eq
            bufferIndex_eq behind (by omega)
          have index_eq : span.queued.index = span.start := rfl
          have size_eq : span.queued.size = (span.stop - span.start : Nat) := rfl
          rw [index_eq, skippedBefore_eq bufferIndex_eq (by omega), skipped, size_eq,
            toSize_natCast (by omega)]
          refine ⟨by omega, ?_⟩
          rw [Buffer.length, data_eq, List.length_drop]
          omega

/-- A call of the framer's interface. -/
inductive FramerUse where
  /-- `framer_add`. -/
  | add (chunk : List UInt8)
  /-- `framer_get_frame2`. -/
  | take (data : Data)
  deriving DecidableEq, Repr

/-- One call: `framer_add` succeeds, and frames are taken only when there is one. -/
def framerUse (expat : Expat) (heap : Heap) (framer : Framer) : FramerUse → Option Framer
  | .add chunk =>
      match framerAdd expat framer chunk with
      | (next, true) => some next
      | (_, false) => none
  | .take data =>
      match framer.frames with
      | [] => none
      | head :: _ => some (framerGetFrame2 heap framer head data).1

/-- What a call does. -/
theorem framerUse_cases {expat : Expat} {heap : Heap} {framer next : Framer} {use : FramerUse}
    (used : framerUse expat heap framer use = some next) :
    (∃ chunk, use = .add chunk ∧ expat.accepts (framer.fed ++ chunk) = true ∧
        next = (framerAdd expat framer chunk).1) ∨
      ∃ data head frames, use = .take data ∧ framer.frames = head :: frames ∧
        next = (framerGetFrame2 heap framer head data).1 := by
  cases use with
  | add chunk =>
      refine Or.inl ⟨chunk, rfl, ?_⟩
      cases accepted : expat.accepts (framer.fed ++ chunk) with
      | true => simpa [framerUse, framerAdd, accepted, eq_comm] using used
      | false => simp [framerUse, framerAdd, accepted] at used
  | take data =>
      cases frames_eq : framer.frames with
      | nil => simp [framerUse, frames_eq] at used
      | cons head frames =>
          refine Or.inr ⟨data, head, frames, rfl, rfl, ?_⟩
          simpa [framerUse, frames_eq, eq_comm] using used

/-- The bytes which are fed by calls. -/
def usedBytes (uses : List FramerUse) : List UInt8 :=
  uses.flatMap fun use =>
    match use with
    | .add chunk => chunk
    | .take _ => []

/-- A framer which was fed the beginning of a stream, and from which frames were taken while they
were in order. -/
structure Framer.Yields (document : Document) (framer : Framer) (taken later : List Span) :
    Prop where
  fed_isPrefix : framer.fed <+: document.bytes
  spans_eq : document.spans = taken ++ later
  complete : ∀ span ∈ taken, span.stop ≤ framer.fed.length
  ordered : Ordered 0 taken
  mirrors : (framerAfter framerCreate document.marks framer.fed.length).Mirrors framer
    (taken.map Span.queued)
  unlimited : framer.buffer.maxLength = 0
  buffer_eq : framer.buffer.data = framer.fed.drop (lastStop 0 taken)
  bufferIndex_eq : framer.bufferIndex = lastStop 0 taken
  position_le : lastStop 0 taken ≤ framer.fed.length

section

variable {expat : Expat} {document : Document} {framer : Framer} {taken later : List Span}

theorem yields_framerCreate (reads : expat.Reads document) :
    framerCreate.Yields document [] document.spans where
  fed_isPrefix := List.nil_prefix
  spans_eq := rfl
  complete := by simp
  ordered := trivial
  mirrors := (draws_framerCreate reads).mirrors
  unlimited := rfl
  buffer_eq := rfl
  bufferIndex_eq := rfl
  position_le := Nat.le_refl 0

theorem Framer.Yields.spansUpTo_eq (yields : framer.Yields document taken later) :
    document.spansUpTo framer.fed.length =
      taken ++ later.filter fun span => span.stop ≤ framer.fed.length := by
  rw [Document.spansUpTo, yields.spans_eq, List.filter_append,
    List.filter_eq_self.mpr fun span member => by simpa using yields.complete span member]

/-- What is queued is what was completed and not taken. -/
theorem Framer.Yields.frames_eq (yields : framer.Yields document taken later)
    (stream : document.IsXmlStream) (small : framer.fed.length < 2 ^ 31) :
    framer.frames =
      (later.filter fun span => span.stop ≤ framer.fed.length).map Span.queued := by
  have queue_eq := yields.mirrors.frames_eq
  have spans_eq := yields.spansUpTo_eq
  rw [Document.spansUpTo] at spans_eq
  rw [Document.frames_framerAfter stream.root_bareName stream.content_inner small, spans_eq,
    List.map_append] at queue_eq
  exact (List.append_cancel_left queue_eq).symm

/-- The queue is in bounds exactly when all spans completed so far are in order. -/
theorem Framer.Yields.inBounds_iff (yields : framer.Yields document taken later)
    (stream : document.IsXmlStream) (small : framer.fed.length < 2 ^ 31) :
    framer.InBounds ↔ Ordered 0 (document.spansUpTo framer.fed.length) := by
  have frames_eq := yields.frames_eq stream small
  have complete : ∀ span ∈ later.filter fun span => span.stop ≤ framer.fed.length,
      span.start ≤ span.stop ∧ span.stop ≤ framer.fed.length := by
    intro span member
    obtain ⟨inside, complete⟩ := List.mem_filter.mp member
    have known : span ∈ document.spans := by
      rw [yields.spans_eq]
      exact List.mem_append_right _ inside
    exact ⟨stream.spans_sorted.1 span known, by simpa using complete⟩
  rw [yields.spansUpTo_eq, ordered_append,
    Jabsocket.ordered_iff fun span member => (complete span member).1]
  generalize (later.filter fun span => span.stop ≤ framer.fed.length) = waiting
    at frames_eq complete
  rw [Framer.inBounds_iff_spans yields.unlimited yields.buffer_eq yields.bufferIndex_eq
    yields.position_le frames_eq fun span member => ?_]
  · constructor
    · rintro ⟨within, ordered⟩
      exact ⟨yields.ordered, fun span member => (within span member).1, ordered⟩
    · rintro ⟨-, behind, ordered⟩
      exact ⟨fun span member => ⟨behind span member, (complete span member).2⟩, ordered⟩
  · have bounds := complete span member
    omega

/-- More of the stream is fed. -/
theorem Framer.Yields.add (yields : framer.Yields document taken later)
    (reads : expat.Reads document) {chunk : List UInt8}
    (beginning : framer.fed ++ chunk <+: document.bytes) :
    (framerAdd expat framer chunk).1.fed = framer.fed ++ chunk ∧
      (framerAdd expat framer chunk).1.Yields document taken later := by
  obtain ⟨-, grows, mirrors⟩ := yields.mirrors.add reads yields.unlimited beginning
  refine ⟨grows.fed_eq, ?_⟩
  exact
    { fed_isPrefix := grows.fed_eq ▸ beginning
      spans_eq := yields.spans_eq
      complete := fun span member => by
        have bound := yields.complete span member
        rw [grows.fed_eq, List.length_append]
        omega
      ordered := yields.ordered
      mirrors := grows.fed_eq ▸ mirrors
      unlimited := grows.maxLength_eq.trans yields.unlimited
      buffer_eq := by
        rw [grows.buffer_eq, grows.fed_eq, yields.buffer_eq,
          List.drop_append_of_le_length yields.position_le]
      bufferIndex_eq := grows.bufferIndex_eq.trans yields.bufferIndex_eq
      position_le := by
        have bound := yields.position_le
        rw [grows.fed_eq, List.length_append]
        omega }

/-- The first frame of the queue is the first span which was not taken. -/
theorem Framer.Yields.head_eq (yields : framer.Yields document taken later)
    (stream : document.IsXmlStream) (small : framer.fed.length < 2 ^ 31) {head : QueuedFrame}
    {frames : List QueuedFrame} (frames_eq : framer.frames = head :: frames) :
    ∃ span later', later = span :: later' ∧ head = span.queued ∧ span.start ≤ span.stop ∧
      span.stop ≤ framer.fed.length := by
  have queue_eq := yields.frames_eq stream small
  obtain ⟨proper, sorted⟩ := stream.spans_sorted
  rw [yields.spans_eq] at proper sorted
  have later_sorted := (List.pairwise_append.mp sorted).2.1
  cases later with
  | nil => simp [frames_eq] at queue_eq
  | cons span later' =>
      have behind := (List.pairwise_cons.mp later_sorted).1
      have span_proper := proper span (List.mem_append_right _ List.mem_cons_self)
      by_cases complete : span.stop ≤ framer.fed.length
      · rw [frames_eq, List.filter_cons_of_pos (by simpa using complete), List.map_cons] at queue_eq
        exact ⟨span, later', rfl, (List.cons.inj queue_eq).1, span_proper, complete⟩
      · have none_left : (later'.filter fun span => span.stop ≤ framer.fed.length) = [] := by
          refine List.filter_eq_nil_iff.mpr fun other member => ?_
          have bound := behind other member
          simp only [decide_eq_true_eq]
          omega
        rw [frames_eq, List.filter_cons_of_neg (by simpa using complete), none_left] at queue_eq
        cases queue_eq

/-- The first frame is taken out of a queue which is in bounds. -/
theorem Framer.Yields.take (yields : framer.Yields document taken later)
    (stream : document.IsXmlStream) (small : framer.fed.length < 2 ^ 31)
    (inBounds : framer.InBounds) {head : QueuedFrame} {frames : List QueuedFrame}
    (frames_eq : framer.frames = head :: frames) (heap : Heap) (data : Data) :
    (framerGetFrame2 heap framer head data).1.fed = framer.fed ∧
      ∃ taken later, (framerGetFrame2 heap framer head data).1.Yields document taken later := by
  obtain ⟨span, later', rfl, rfl, proper, complete⟩ := yields.head_eq stream small frames_eq
  have behind : lastStop 0 taken ≤ span.start := by
    have contained := (inBounds.contained span.queued (by simp [frames_eq])).2.1
    rw [yields.bufferIndex_eq] at contained
    exact Int.ofNat_le.mp contained
  have index_eq : span.queued.index = span.start := rfl
  have size_eq : toSize span.queued.size = span.stop - span.start := toSize_natCast (by omega)
  have last_eq : lastStop 0 (taken ++ [span]) = span.stop := lastStop_append 0 taken [span]
  obtain ⟨buffer, dropped, unlimited, data_eq⟩ := framerDrop_skipTo_eq yields.unlimited
    yields.buffer_eq yields.bufferIndex_eq behind (by omega) (span.stop - span.start)
  rw [Nat.add_sub_cancel' proper] at dropped data_eq
  simp only [framerGetFrame2, index_eq, size_eq, dropped]
  refine ⟨trivial, taken ++ [span], later', ?_⟩
  exact
    { fed_isPrefix := yields.fed_isPrefix
      spans_eq := by simp [yields.spans_eq]
      complete := fun other membership => by
        rcases List.mem_append.mp membership with before | last
        · exact yields.complete other before
        · rw [List.mem_singleton.mp last]
          exact complete
      ordered := ordered_append.mpr ⟨yields.ordered, behind, trivial⟩
      mirrors :=
        { level_eq := yields.mirrors.level_eq
          index_eq := yields.mirrors.index_eq
          frames_eq := by
            have queue_eq := yields.mirrors.frames_eq
            rw [frames_eq] at queue_eq
            simpa [frames_eq] using queue_eq }
      unlimited
      buffer_eq := data_eq.trans (by rw [last_eq])
      bufferIndex_eq := by
        dsimp only
        rw [toInt32_natCast (by omega), last_eq]
      position_le := last_eq ▸ complete }

/-! ## Runs -/

theorem Document.IsXmlStream.spansUpTo_isPrefix (stream : document.IsXmlStream)
    {count more : Nat} (fewer : count ≤ more) :
    document.spansUpTo count <+: document.spansUpTo more := by
  have prefix_eq : ∀ bound, document.spansUpTo bound =
      document.spans.takeWhile fun span => span.stop < bound + 1 := by
    intro bound
    rw [takeWhile_eq_filter_of_ordered stream.spans_sorted.2]
    simp only [Document.spansUpTo, Nat.lt_succ_iff]
  rw [prefix_eq, prefix_eq]
  refine takeWhile_isPrefix_of_imp (fun span before => ?_) _
  simp only [decide_eq_true_eq] at before ⊢
  omega

/-- When the children within more bytes have namespaces, so have those within fewer. -/
theorem Document.IsXmlStream.namespaced_mono (stream : document.IsXmlStream) {count more : Nat}
    (fewer : count ≤ more) (namespaced : document.NamespacedUpTo more) :
    document.NamespacedUpTo count := by
  obtain ⟨later, spans_eq⟩ := stream.spansUpTo_isPrefix fewer
  rw [← stream.ordered_iff] at namespaced ⊢
  rw [← spans_eq] at namespaced
  exact (ordered_append.mp namespaced).1

/-- A framer which is in bounds stays so exactly when the children which are completed have
namespaces. -/
theorem Framer.Yields.always_iff (yields : framer.Yields document taken later)
    (reads : expat.Reads document) (stream : document.IsXmlStream) {heap : Heap}
    {uses : List FramerUse} {final : Framer} (inBounds : framer.InBounds)
    (beginning : framer.fed ++ usedBytes uses <+: document.bytes)
    (small : (framer.fed ++ usedBytes uses).length < 2 ^ 31)
    (execution : Execution.run (framerUse expat heap) framer uses = some final) :
    Execution.Always (framerUse expat heap) Framer.InBounds framer uses ↔
      document.NamespacedUpTo (framer.fed ++ usedBytes uses).length := by
  have fed_small : framer.fed.length < 2 ^ 31 := by
    rw [List.length_append] at small
    omega
  induction uses generalizing framer taken later with
  | nil =>
      have fed_eq : framer.fed ++ usedBytes [] = framer.fed := List.append_nil _
      rw [fed_eq, ← stream.ordered_iff, ← yields.inBounds_iff stream fed_small]
      refine iff_of_true (fun earlier later reached split_uses before => ?_) inBounds
      obtain ⟨rfl, -⟩ := List.append_eq_nil_iff.mp split_uses.symm
      obtain rfl := Execution.run_nil.mp before
      exact inBounds
  | cons use uses ih =>
      obtain ⟨next, stepped, rest⟩ := Execution.run_cons.mp execution
      rw [Execution.always_cons stepped]
      obtain ⟨chunk, rfl, -, rfl⟩ | ⟨data, head, frames, rfl, frames_eq, rfl⟩ :=
        framerUse_cases stepped
      · have bytes_eq : framer.fed ++ usedBytes (.add chunk :: uses) =
            framer.fed ++ chunk ++ usedBytes uses := (List.append_assoc _ _ _).symm
        rw [bytes_eq] at beginning small ⊢
        obtain ⟨fed_eq, next_yields⟩ :=
          yields.add reads ((List.prefix_append _ _).trans beginning)
        rw [← fed_eq] at beginning small ⊢
        have next_small : (framerAdd expat framer chunk).1.fed.length < 2 ^ 31 := by
          rw [List.length_append] at small
          omega
        have next_iff := next_yields.inBounds_iff stream next_small
        rw [stream.ordered_iff] at next_iff
        by_cases good : (framerAdd expat framer chunk).1.InBounds
        · have later_iff := ih next_yields good beginning small rest next_small
          exact ⟨fun always => later_iff.mp always.2, fun namespaced =>
            ⟨inBounds, later_iff.mpr namespaced⟩⟩
        · refine iff_of_false (fun always => good (always.2 [] uses _ rfl rfl)) ?_
          intro namespaced
          refine good (next_iff.mpr (stream.namespaced_mono ?_ namespaced))
          rw [List.length_append]
          exact Nat.le_add_right _ _
      · have bytes_eq : framer.fed ++ usedBytes (.take data :: uses) =
            framer.fed ++ usedBytes uses := rfl
        rw [bytes_eq] at beginning small ⊢
        obtain ⟨fed_eq, taken', later', next_yields⟩ :=
          yields.take stream fed_small inBounds frames_eq heap data
        rw [← fed_eq] at beginning small fed_small ⊢
        have good : (framerGetFrame2 heap framer head data).1.InBounds := by
          rw [next_yields.inBounds_iff stream fed_small, fed_eq,
            ← yields.inBounds_iff stream (fed_eq ▸ fed_small)]
          exact inBounds
        have later_iff := ih next_yields good beginning small rest fed_small
        exact ⟨fun always => later_iff.mp always.2, fun namespaced =>
          ⟨inBounds, later_iff.mpr namespaced⟩⟩

end

/-- However a stream is fed and whenever frames are taken, the queued frames lie in the buffer
throughout exactly when the children which are completed have namespaces. -/
theorem always_inBounds_iff {expat : Expat} {document : Document} (reads : expat.Reads document)
    (stream : document.IsXmlStream) {heap : Heap} {uses : List FramerUse} {final : Framer}
    (beginning : usedBytes uses <+: document.bytes) (small : (usedBytes uses).length < 2 ^ 31)
    (execution : Execution.run (framerUse expat heap) framerCreate uses = some final) :
    Execution.Always (framerUse expat heap) Framer.InBounds framerCreate uses ↔
      document.NamespacedUpTo (usedBytes uses).length := by
  have inBounds : framerCreate.InBounds :=
    { ordered := List.Pairwise.nil
      contained := by simp [framerCreate]
      removes := by simp [framerCreate] }
  exact (yields_framerCreate reads).always_iff reads stream inBounds beginning small execution

/-- A stream with one empty child. -/
def oneChild (child : Tag) : Document :=
  { sampleStream with content := .empty child .nil }

/-- A child in a namespace. -/
def namespacedChild : Tag :=
  { name := text "u" ++ [0xFF] ++ text "a", attr := [], bytes := text "<stream:a/>" }

/-- A child without a namespace. -/
def bareChild : Tag :=
  { name := text "a", attr := [], bytes := text "<a/>" }

theorem isXmlStream_oneChild {child : Tag} (other : localName child.name ≠ text "stream")
    (nonempty : child.bytes ≠ []) : (oneChild child).IsXmlStream where
  root_name := show localName sampleStream.root.name = text "stream" by decide +kernel
  root_bytes := show sampleStream.root.bytes ≠ [] by decide +kernel
  content_names := ⟨other, trivial⟩
  content_bytes := ⟨nonempty, trivial⟩

/-- The start tag is taken before the child arrives. -/
def childUses (child : Tag) : List FramerUse :=
  [.add sampleStream.root.bytes, .take (dataInit 64), .add child.bytes]

theorem always_inBounds_namespacedChild :
    Execution.Always (framerUse (Expat.reading (oneChild namespacedChild)) fun _ _ => 0)
      Framer.InBounds framerCreate (childUses namespacedChild) := by
  obtain ⟨final, execution⟩ : ∃ final, Execution.run
      (framerUse (Expat.reading (oneChild namespacedChild)) fun _ _ => 0) framerCreate
      (childUses namespacedChild) = some final :=
    Option.isSome_iff_exists.mp (by decide +kernel)
  have stream : (oneChild namespacedChild).IsXmlStream :=
    isXmlStream_oneChild (by decide +kernel) (by decide +kernel)
  have reads : (Expat.reading (oneChild namespacedChild)).Reads (oneChild namespacedChild) :=
    (oneChild namespacedChild).reads_reading (by decide +kernel)
  exact (always_inBounds_iff reads stream (by decide +kernel) (by decide +kernel) execution).mpr
    (by decide +kernel)

/-- The child without a namespace is queued with the 32 bytes of the start tag, which were taken:
the frame has 36 bytes, and 4 are in the buffer. -/
theorem not_inBounds_bareChild :
    (oneChild bareChild).IsXmlStream ∧
      (Expat.reading (oneChild bareChild)).Reads (oneChild bareChild) ∧
      ∃ final, Execution.run (framerUse (Expat.reading (oneChild bareChild)) fun _ _ => 0)
          framerCreate (childUses bareChild) = some final ∧
        final.frames = [⟨0, 36⟩] ∧ final.bufferIndex = 32 ∧ final.buffer.length = 4 ∧
        ¬ Execution.Always (framerUse (Expat.reading (oneChild bareChild)) fun _ _ => 0)
          Framer.InBounds framerCreate (childUses bareChild) := by
  refine ⟨isXmlStream_oneChild (by decide +kernel) (by decide +kernel),
    (oneChild bareChild).reads_reading (by decide +kernel), ?_⟩
  obtain ⟨final, execution, frames_eq, bufferIndex_eq, length_eq⟩ :
      ∃ final, Execution.run (framerUse (Expat.reading (oneChild bareChild)) fun _ _ => 0)
          framerCreate (childUses bareChild) = some final ∧
        final.frames = [⟨0, 36⟩] ∧ final.bufferIndex = 32 ∧ final.buffer.length = 4 := by
    decide +kernel
  refine ⟨final, execution, frames_eq, bufferIndex_eq, length_eq, fun always => ?_⟩
  have inBounds := always (childUses bareChild) [] final (by simp) execution
  have contained := (inBounds.contained ⟨0, 36⟩ (by simp [frames_eq])).2.1
  rw [bufferIndex_eq] at contained
  exact absurd contained (by decide)

end Jabsocket
