import Jabsocket.Expat

/-!
# XML streams

A stream is given by its tags: a prolog, the start tag of the root, the content of the root, and
its end tag.  What is between the tags is arbitrary.  The parser's handler calls and the items into
which the stream falls are both read off this description.
-/

namespace Jabsocket

/-- A start tag or an empty-element tag: the name of the element as the parser reports it, its
attributes, and the bytes of the tag. -/
structure Tag where
  name : List UInt8
  attr : List (List UInt8 × List UInt8)
  bytes : List UInt8
  deriving DecidableEq, Repr

/-- The content of an element. -/
inductive Content where
  | nil
  /-- Anything which is not a tag. -/
  | other (bytes : List UInt8) (rest : Content)
  | empty (tag : Tag) (rest : Content)
  | element (tag : Tag) (content : Content) (endTag : List UInt8) (rest : Content)
  deriving DecidableEq, Repr

/-- A document whose root is not an empty-element tag. -/
structure Document where
  prolog : List UInt8
  root : Tag
  content : Content
  endTag : List UInt8
  epilog : List UInt8
  deriving DecidableEq, Repr

/-- A handler call, with the number of bytes up to the end of its tag. -/
abbrev Mark := Nat × Callback

/-- Some consecutive bytes of a document, with their position. -/
structure Item where
  index : Nat
  bytes : List UInt8
  deriving DecidableEq, Repr

/-- The position behind an item. -/
def Item.stop (item : Item) : Nat :=
  item.index + item.bytes.length

/-- An item of a text in front of which some bytes are put. -/
def Item.behind (offset : Nat) (item : Item) : Item :=
  { item with index := offset + item.index }

namespace Content

def bytes : Content → List UInt8
  | nil => []
  | other bytes rest => bytes ++ rest.bytes
  | empty tag rest => tag.bytes ++ rest.bytes
  | element tag content endTag rest => tag.bytes ++ (content.bytes ++ (endTag ++ rest.bytes))

/-- The handler calls for content at a position.  For an empty-element tag the position is already
behind the tag when the end handler is called. -/
def marks : Nat → Content → List Mark
  | _, nil => []
  | index, other bytes rest => rest.marks (index + bytes.length)
  | index, empty tag rest =>
      let stop := index + tag.bytes.length
      (stop, .start tag.name tag.attr index tag.bytes.length) ::
        (stop, .stop tag.name stop 0) :: rest.marks stop
  | index, element tag content endTag rest =>
      let inner := index + tag.bytes.length
      let outer := inner + content.bytes.length
      let stop := outer + endTag.length
      (inner, .start tag.name tag.attr index tag.bytes.length) ::
        (content.marks inner ++ (stop, .stop tag.name outer endTag.length) :: rest.marks stop)

/-- The elements of content at a position, without what is between them. -/
def items : Nat → Content → List Item
  | _, nil => []
  | index, other bytes rest => rest.items (index + bytes.length)
  | index, empty tag rest => ⟨index, tag.bytes⟩ :: rest.items (index + tag.bytes.length)
  | index, element tag content endTag rest =>
      let bytes := tag.bytes ++ (content.bytes ++ endTag)
      ⟨index, bytes⟩ :: rest.items (index + bytes.length)

/-- All tags meet a condition. -/
def AllTags (condition : Tag → Prop) : Content → Prop
  | nil => True
  | other _ rest => rest.AllTags condition
  | empty tag rest => condition tag ∧ rest.AllTags condition
  | element tag content _ rest =>
      condition tag ∧ content.AllTags condition ∧ rest.AllTags condition

end Content

namespace Document

/-- Position of the content of the root. -/
def inner (document : Document) : Nat :=
  document.prolog.length + document.root.bytes.length

/-- Position of the end tag of the root. -/
def outer (document : Document) : Nat :=
  document.inner + document.content.bytes.length

def bytes (document : Document) : List UInt8 :=
  document.prolog ++ (document.root.bytes ++
    (document.content.bytes ++ (document.endTag ++ document.epilog)))

def marks (document : Document) : List Mark :=
  (document.inner, .start document.root.name document.root.attr document.prolog.length
    document.root.bytes.length) ::
    (document.content.marks document.inner ++
      [(document.outer + document.endTag.length,
        .stop document.root.name document.outer document.endTag.length)])

/-- The start tag of the root, its children, and its end tag. -/
def items (document : Document) : List Item :=
  ⟨document.prolog.length, document.root.bytes⟩ ::
    (document.content.items document.inner ++ [⟨document.outer, document.endTag⟩])

/-- A document without the first bytes of its prolog. -/
def without (document : Document) (skipped : Nat) : Document :=
  { document with prolog := document.prolog.drop skipped }

/-- The items which are complete within the first bytes of the document. -/
def completed (document : Document) (count : Nat) : List (List UInt8) :=
  (document.items.filter fun item => item.stop ≤ count).map Item.bytes

end Document

/-- The parser understands a document: it accepts every beginning of it, and each handler is called
as soon as the last byte of its tag was fed. -/
def Expat.Reads (expat : Expat) (document : Document) : Prop :=
  ∀ fed, fed <+: document.bytes →
    expat.accepts fed = true ∧
      expat.report fed = (document.marks.filter fun mark => mark.1 ≤ fed.length).map Prod.snd

/-- The parser understands a document, and does not need what stands in front of its root: an XML
declaration is optional. -/
def Expat.Understands (expat : Expat) (document : Document) : Prop :=
  expat.Reads document ∧ expat.Reads (document.without document.prolog.length)

/-- A parser for one document. -/
def Expat.reading (document : Document) : Expat :=
  Expat.scripted document.bytes (document.marks.map fun mark => (mark.1 - 1, mark.2))

section

variable {first second : Expat} {document : Document} (apart : first.Apart second)

/-- A document of the first parser, for which the second one calls no handler. -/
theorem Expat.Reads.either_left (reads : first.Reads document)
    (silent : ∀ fed, fed <+: document.bytes → second.report fed = []) :
    (first.either second apart).Reads document := by
  intro fed beginning
  obtain ⟨accepted, report_eq⟩ := reads fed beginning
  refine ⟨Bool.or_eq_true_iff.mpr (Or.inl accepted), ?_⟩
  rw [← report_eq]
  exact (congrArg (first.report fed ++ ·) (silent fed beginning)).trans (List.append_nil _)

/-- A document of the second parser, for which the first one calls no handler. -/
theorem Expat.Reads.either_right (reads : second.Reads document)
    (silent : ∀ fed, fed <+: document.bytes → first.report fed = []) :
    (first.either second apart).Reads document := by
  intro fed beginning
  obtain ⟨accepted, report_eq⟩ := reads fed beginning
  refine ⟨Bool.or_eq_true_iff.mpr (Or.inr accepted), ?_⟩
  rw [← report_eq]
  exact congrArg (· ++ second.report fed) (silent fed beginning)

end

/-! ## Positions -/

namespace Content

theorem le_of_mem_marks {content : Content} {index : Nat} {mark : Mark}
    (member : mark ∈ content.marks index) : index ≤ mark.1 := by
  induction content generalizing index with
  | nil => cases member
  | other bytes rest ih => exact Nat.le_trans (Nat.le_add_right _ _) (ih member)
  | empty tag rest ih =>
      simp only [marks, List.mem_cons] at member
      rcases member with rfl | rfl | later
      · exact Nat.le_add_right _ _
      · exact Nat.le_add_right _ _
      · exact Nat.le_trans (Nat.le_add_right _ _) (ih later)
  | element tag content endTag rest content_ih rest_ih =>
      simp only [marks, List.mem_cons, List.mem_append] at member
      rcases member with rfl | inside | rfl | later
      · exact Nat.le_add_right _ _
      · exact Nat.le_trans (Nat.le_add_right _ _) (content_ih inside)
      · dsimp only
        omega
      · have later_le := rest_ih later
        omega

/-- The handler calls of content are made in order and within it. -/
theorem marks_ordered (content : Content) (index : Nat) :
    (content.marks index).Pairwise (fun first second => first.1 ≤ second.1) ∧
      ∀ mark ∈ content.marks index,
        index ≤ mark.1 ∧ mark.1 ≤ index + content.bytes.length := by
  induction content generalizing index with
  | nil => simp [marks]
  | other bytes rest ih =>
      obtain ⟨ordered, within⟩ := ih (index + bytes.length)
      refine ⟨ordered, fun mark member => ?_⟩
      have bounds := within mark member
      simp only [Content.bytes, List.length_append]
      omega
  | empty tag rest ih =>
      obtain ⟨ordered, within⟩ := ih (index + tag.bytes.length)
      simp only [marks, List.pairwise_cons, List.mem_cons, forall_eq_or_imp, Content.bytes,
        List.length_append] at within ⊢
      refine ⟨⟨⟨Nat.le_refl _, fun mark member => (within mark member).1⟩,
        fun mark member => (within mark member).1, ordered⟩, ⟨by omega, by omega⟩,
        ⟨by omega, by omega⟩, fun mark member => ?_⟩
      have bounds := within mark member
      omega
  | element tag content endTag rest content_ih rest_ih =>
      obtain ⟨inner_ordered, inner_within⟩ := content_ih (index + tag.bytes.length)
      obtain ⟨rest_ordered, rest_within⟩ := rest_ih
        (index + tag.bytes.length + content.bytes.length + endTag.length)
      have bounds : ∀ mark ∈ content.marks (index + tag.bytes.length) ++
          (index + tag.bytes.length + content.bytes.length + endTag.length,
            Callback.stop tag.name (index + tag.bytes.length + content.bytes.length)
              endTag.length) ::
            rest.marks (index + tag.bytes.length + content.bytes.length + endTag.length),
          index + tag.bytes.length ≤ mark.1 ∧
            mark.1 ≤ index + (element tag content endTag rest).bytes.length := by
        intro mark member
        simp only [Content.bytes, List.length_append]
        rcases List.mem_append.mp member with inside | behind
        · have := inner_within mark inside
          omega
        · rcases List.mem_cons.mp behind with rfl | later
          · dsimp only
            omega
          · have := rest_within mark later
            omega
      rw [marks]
      refine ⟨List.pairwise_cons.mpr ⟨fun mark member => (bounds mark member).1, ?_⟩,
        fun mark member => ?_⟩
      · refine List.pairwise_append.mpr ⟨inner_ordered, List.pairwise_cons.mpr
          ⟨fun mark member => (rest_within mark member).1, rest_ordered⟩,
          fun first inside second behind => ?_⟩
        have first_within := inner_within first inside
        rcases List.mem_cons.mp behind with rfl | later
        · dsimp only
          omega
        · have := rest_within second later
          omega
      · rcases List.mem_cons.mp member with rfl | later
        · simp only [Content.bytes, List.length_append]
          omega
        · have := bounds mark later
          omega

/-- The items of content lie within it, one behind the other. -/
theorem items_ordered (content : Content) (index : Nat) :
    (content.items index).Pairwise (fun first second => first.stop ≤ second.index) ∧
      ∀ item ∈ content.items index,
        index ≤ item.index ∧ item.stop ≤ index + content.bytes.length := by
  induction content generalizing index with
  | nil => simp [items]
  | other bytes rest ih =>
      obtain ⟨ordered, within⟩ := ih (index + bytes.length)
      refine ⟨ordered, fun item member => ?_⟩
      have bounds := within item member
      simp only [Content.bytes, List.length_append]
      omega
  | empty tag rest ih =>
      obtain ⟨ordered, within⟩ := ih (index + tag.bytes.length)
      simp only [items, List.pairwise_cons, List.mem_cons, forall_eq_or_imp, Content.bytes,
        List.length_append, Item.stop] at within ⊢
      refine ⟨⟨fun item member => (within item member).1, ordered⟩, ⟨Nat.le_refl _, by omega⟩,
        fun item member => ?_⟩
      have bounds := within item member
      omega
  | element tag content endTag rest content_ih rest_ih =>
      obtain ⟨ordered, within⟩ :=
        rest_ih (index + (tag.bytes ++ (content.bytes ++ endTag)).length)
      simp only [items, List.pairwise_cons, List.mem_cons, forall_eq_or_imp, Content.bytes,
        List.length_append, Item.stop] at within ⊢
      refine ⟨⟨fun item member => (within item member).1, ?_⟩, ⟨Nat.le_refl _, by omega⟩,
        fun item member => ?_⟩
      · simpa [Item.stop] using ordered
      · have bounds := within item member
        omega

/-- The items of content are parts of it. -/
theorem items_bytes (content : Content) (before after : List UInt8) :
    ∀ item ∈ content.items before.length,
      item.bytes <+: (before ++ (content.bytes ++ after)).drop item.index := by
  induction content generalizing before with
  | nil => simp [items]
  | other bytes rest ih =>
      intro item member
      have part := ih (before ++ bytes) item (by simpa [items] using member)
      simpa [Content.bytes] using part
  | empty tag rest ih =>
      intro item member
      simp only [items, List.mem_cons] at member
      rcases member with rfl | later
      · simp [Content.bytes]
      · have part := ih (before ++ tag.bytes) item (by simpa using later)
        simpa [Content.bytes] using part
  | element tag content endTag rest content_ih rest_ih =>
      intro item member
      simp only [items, List.mem_cons] at member
      rcases member with rfl | later
      · simp [Content.bytes]
      · have part := rest_ih (before ++ (tag.bytes ++ (content.bytes ++ endTag))) item
          (by simpa using later)
        simpa [Content.bytes] using part

end Content

theorem Item.stop_behind (offset : Nat) (item : Item) :
    (item.behind offset).stop = offset + item.stop :=
  Nat.add_assoc _ _ _

/-- Items move with the text which stands in front of them. -/
theorem Content.items_add (content : Content) (offset index : Nat) :
    content.items (offset + index) = (content.items index).map (Item.behind offset) := by
  induction content generalizing index with
  | nil => rfl
  | other bytes rest ih => rw [items, items, Nat.add_assoc, ih]
  | empty tag rest ih =>
      rw [items, items, Nat.add_assoc, ih]
      rfl
  | element tag content endTag rest content_ih rest_ih =>
      simp only [items, List.map_cons]
      rw [Nat.add_assoc, rest_ih]
      rfl

namespace Document

variable (document : Document)

theorem without_zero : document.without 0 = document :=
  rfl

theorem bytes_without {skipped : Nat} (inside : skipped ≤ document.prolog.length) :
    (document.without skipped).bytes = document.bytes.drop skipped := by
  simp [bytes, without, List.drop_append_of_le_length inside]

/-- Without the beginning of its prolog, a document falls into the same items. -/
theorem items_without {skipped : Nat} (inside : skipped ≤ document.prolog.length) :
    document.items = (document.without skipped).items.map (Item.behind skipped) := by
  have prolog_length : document.prolog.length =
      skipped + (document.without skipped).prolog.length := by
    rw [without, List.length_drop]
    omega
  have inner_eq : document.inner = skipped + (document.without skipped).inner := by
    rw [inner, prolog_length, Nat.add_assoc]
    rfl
  have outer_eq : document.outer = skipped + (document.without skipped).outer := by
    rw [outer, inner_eq, Nat.add_assoc]
    rfl
  rw [items, items, List.map_cons, List.map_append, inner_eq, outer_eq, prolog_length,
    Content.items_add]
  rfl

/-- No item is complete within the prolog. -/
theorem length_prolog_lt_stop (tagged : document.root.bytes ≠ []) {item : Item}
    (member : item ∈ document.items) : document.prolog.length < item.stop := by
  have positive := List.length_pos_of_ne_nil tagged
  have bounds := (document.content.items_ordered document.inner).2
  simp only [items, List.mem_cons, List.mem_append, List.not_mem_nil, or_false] at member
  rcases member with rfl | child | rfl
  · simpa [Item.stop] using positive
  · have inside := (bounds item child).1
    rw [inner] at inside
    rw [Item.stop]
    omega
  · rw [Item.stop, outer, inner]
    dsimp only
    omega

theorem marks_ordered :
    document.marks.Pairwise (fun first second => first.1 ≤ second.1) ∧
      ∀ mark ∈ document.marks, document.inner ≤ mark.1 := by
  obtain ⟨ordered, within⟩ := document.content.marks_ordered document.inner
  have bounds : ∀ mark ∈ document.content.marks document.inner ++
      [(document.outer + document.endTag.length,
        Callback.stop document.root.name document.outer document.endTag.length)],
      document.inner ≤ mark.1 := by
    intro mark member
    rcases List.mem_append.mp member with inside | last
    · exact (within mark inside).1
    · rw [List.mem_singleton.mp last]
      exact Nat.le_trans (Nat.le_add_right _ _) (Nat.le_add_right _ _)
  rw [marks]
  refine ⟨List.pairwise_cons.mpr ⟨bounds, List.pairwise_append.mpr
    ⟨ordered, List.pairwise_singleton _ _, fun first inside last ending => ?_⟩⟩,
    fun mark member => ?_⟩
  · rw [List.mem_singleton.mp ending]
    exact Nat.le_trans (within first inside).2 (Nat.le_add_right _ _)
  · rcases List.mem_cons.mp member with rfl | later
    · exact Nat.le_refl _
    · exact bounds mark later

/-- The parser for one document understands it. -/
theorem reads_reading (positive : 0 < document.inner) :
    (Expat.reading document).Reads document := by
  obtain ⟨ordered, behind⟩ := document.marks_ordered
  intro fed beginning
  refine ⟨List.isPrefixOf_iff_prefix.mpr beginning, ?_⟩
  have shifted : (document.marks.map fun mark => (mark.1 - 1, mark.2)).Pairwise
      fun first second => first.1 ≤ second.1 :=
    List.pairwise_map.mpr (ordered.imp fun before => Nat.sub_le_sub_right before 1)
  simp only [Expat.reading, Expat.scripted, agreement_of_isPrefix beginning]
  rw [takeWhile_eq_filter_of_ordered shifted, List.filter_map, List.map_map]
  congr 1
  refine List.filter_congr fun mark member => ?_
  have := behind mark member
  simp only [Function.comp_apply, decide_eq_decide]
  omega

/-- The parser for one document calls no handler before bytes of its content agree. -/
theorem report_reading_eq_nil {fed : List UInt8}
    (short : agreement fed document.bytes < document.inner) :
    (Expat.reading document).report fed = [] := by
  have behind := document.marks_ordered.2
  simp only [Expat.reading, Expat.scripted, List.map_eq_nil_iff]
  cases marks_eq : document.marks with
  | nil => rfl
  | cons mark marks =>
      have first_behind := behind mark (by rw [marks_eq]; exact List.mem_cons_self)
      rw [List.map_cons, List.takeWhile_cons_of_neg]
      rw [decide_eq_true_eq]
      dsimp only
      omega

/-- A document whose declaration is seen from its second byte. -/
structure IsDeclared : Prop where
  declared : document.bytes.take 2 ≠ (document.without document.prolog.length).bytes.take 2
  tagged : 2 ≤ document.root.bytes.length

/-- Bytes which agree with the document do not agree with the one without its prolog. -/
theorem IsDeclared.agreement_lt {document : Document} (declared : document.IsDeclared)
    (fed : List UInt8) : agreement fed document.bytes < 2 ∨
      agreement fed (document.without document.prolog.length).bytes < 2 := by
  by_contra both
  rw [not_or, Nat.not_lt, Nat.not_lt] at both
  have first := take_eq_of_le_agreement both.1
  exact declared.declared (first.symm.trans (take_eq_of_le_agreement both.2))

theorem IsDeclared.le_inner {document : Document} (declared : document.IsDeclared)
    (skipped : Nat) : 2 ≤ (document.without skipped).inner :=
  Nat.le_trans declared.tagged (Nat.le_add_left _ _)

theorem IsDeclared.apart {document : Document} (declared : document.IsDeclared) :
    (Expat.reading document).Apart
      (Expat.reading (document.without document.prolog.length)) := by
  intro fed
  refine (declared.agreement_lt fed).imp (fun short => ?_) fun short => ?_
  · exact report_reading_eq_nil _ (Nat.lt_of_lt_of_le short (declared.le_inner 0))
  · exact report_reading_eq_nil _ (Nat.lt_of_lt_of_le short (declared.le_inner _))

/-- A parser for a document with and without its declaration. -/
def IsDeclared.parser {document : Document} (declared : document.IsDeclared) : Expat :=
  (Expat.reading document).either (Expat.reading (document.without document.prolog.length))
    declared.apart

theorem IsDeclared.understands_parser {document : Document} (declared : document.IsDeclared) :
    declared.parser.Understands document := by
  constructor
  · refine ((document.without 0).reads_reading
      (Nat.lt_of_lt_of_le Nat.zero_lt_two (declared.le_inner 0))).either_left declared.apart
      fun fed beginning => report_reading_eq_nil _
        (Nat.lt_of_lt_of_le ?_ (declared.le_inner _))
    have agreed : agreement fed document.bytes = fed.length := agreement_of_isPrefix beginning
    have bound := agreement_le_length fed (document.without document.prolog.length).bytes
    have apart := declared.agreement_lt fed
    omega
  · refine ((document.without document.prolog.length).reads_reading
      (Nat.lt_of_lt_of_le Nat.zero_lt_two (declared.le_inner _))).either_right
      declared.apart fun fed beginning => report_reading_eq_nil _
        (Nat.lt_of_lt_of_le ?_ (declared.le_inner 0))
    have agreed := agreement_of_isPrefix beginning
    have bound := agreement_le_length fed document.bytes
    have apart := declared.agreement_lt fed
    omega

theorem items_ordered :
    document.items.Pairwise (fun first second => first.stop ≤ second.index) := by
  obtain ⟨ordered, within⟩ := document.content.items_ordered document.inner
  rw [items, List.pairwise_cons, List.pairwise_append]
  refine ⟨fun item member => ?_, ordered, List.pairwise_singleton _ _,
    fun item member last ending => ?_⟩
  · rcases List.mem_append.mp member with child | ending
    · exact (within item child).1
    · rw [List.mem_singleton.mp ending]
      exact Nat.le_add_right _ _
  · rw [List.mem_singleton.mp ending]
    exact (within item member).2

theorem items_bytes {item : Item} (member : item ∈ document.items) :
    item.bytes <+: document.bytes.drop item.index := by
  simp only [items, List.mem_cons, List.mem_append, List.not_mem_nil, or_false] at member
  rcases member with rfl | child | rfl
  · simp [bytes]
  · have part := document.content.items_bytes (document.prolog ++ document.root.bytes)
      (document.endTag ++ document.epilog) item (by simpa [inner] using child)
    simpa [bytes] using part
  · have skipped : document.bytes.drop document.outer = document.endTag ++ document.epilog := by
      have split_bytes : document.bytes =
          (document.prolog ++ document.root.bytes ++ document.content.bytes) ++
            (document.endTag ++ document.epilog) := by
        simp [bytes]
      rw [split_bytes]
      exact List.drop_left' (by simp [outer, inner, Nat.add_assoc])
    rw [skipped]
    exact List.prefix_append _ _

end Document

end Jabsocket
