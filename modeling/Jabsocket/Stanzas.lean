import Jabsocket.Delivery
import Mathlib.Data.List.TakeDrop

/-!
# Frames which are passed on whole

`cm_readcb` copies every frame through a buffer of fixed size before it is written to the browser.
A frame which does not fit is cut, while the framer drops all of it.
-/

namespace Jabsocket

/-! ## The queue -/

/-- At most `count` frames from the queue, each as `framer_get_frame` returns it. -/
def wholeFramesFrom (heap : Heap) : Nat → Framer → List (List UInt8)
  | 0, _ => []
  | count + 1, framer =>
      match framer.frames with
      | [] => []
      | head :: _ =>
          (framerGetFrame heap framer head).2 ::
            wholeFramesFrom heap count (framerGetFrame heap framer head).1

/-- The frames of the queue with all of their bytes, in order. -/
def wholeFrames (heap : Heap) (framer : Framer) : List (List UInt8) :=
  wholeFramesFrom heap framer.frames.length framer

theorem framerGetFrame_frames (heap : Heap) {framer : Framer} {head : QueuedFrame}
    {frames : List QueuedFrame} (frames_eq : framer.frames = head :: frames) :
    (framerGetFrame heap framer head).1.frames = frames := by
  have dropped := framerGetFrame2_frames heap framer head (dataInit 0)
  rwa [frames_eq] at dropped

theorem wholeFrames_nil (heap : Heap) {framer : Framer} (drained : framer.frames = []) :
    wholeFrames heap framer = [] := by
  rw [wholeFrames, drained]
  rfl

theorem wholeFrames_cons (heap : Heap) {framer : Framer} {head : QueuedFrame}
    {frames : List QueuedFrame} (frames_eq : framer.frames = head :: frames) :
    wholeFrames heap framer =
      (framerGetFrame heap framer head).2 ::
        wholeFrames heap (framerGetFrame heap framer head).1 := by
  rw [wholeFrames, wholeFrames, framerGetFrame_frames heap frames_eq, frames_eq, List.length_cons,
    wholeFramesFrom, frames_eq]

/-- The sizes in the queue are the lengths of the frames. -/
theorem map_length_wholeFrames (heap : Heap) (framer : Framer) :
    (wholeFrames heap framer).map List.length =
      framer.frames.map fun frame => toSize frame.size := by
  induction frames_eq : framer.frames generalizing framer with
  | nil =>
      rw [wholeFrames_nil heap frames_eq]
      rfl
  | cons head frames ih =>
      rw [wholeFrames_cons heap frames_eq, List.map_cons, List.map_cons,
        ih _ (framerGetFrame_frames heap frames_eq)]
      simp [framerGetFrame]

/-- Every frame is cut to the buffer. -/
theorem forwardFrames_queued (heap : Heap) (framer : Framer) (conn : Conn) :
    (forwardFrames heap framer conn).2.queued =
      conn.queued ++ (wholeFrames heap framer).map fun bytes =>
        .frame opcodeText (bytes.take frameCapacity) := by
  obtain ⟨-, -, drained, payloads, cut, queued_eq⟩ := forwardFrames_induction heap framer conn
    (fun state payloads =>
      payloads ++ (wholeFrames heap state).map (fun bytes => bytes.take frameCapacity) =
        (wholeFrames heap framer).map fun bytes => bytes.take frameCapacity)
    rfl fun state payloads head frames cut frames_eq => by
      rw [wholeFrames_cons heap frames_eq] at cut
      rw [← cut, List.append_assoc]
      rfl
  rw [wholeFrames_nil heap drained, List.map_nil, List.append_nil] at cut
  rw [queued_eq, cut, List.map_map]
  rfl

/-- Nothing is cut exactly when every frame of the queue fits into the buffer. -/
theorem forwardFrames_whole_iff (heap : Heap) (framer : Framer) (conn : Conn) :
    (forwardFrames heap framer conn).2.queued =
        conn.queued ++ (wholeFrames heap framer).map (.frame opcodeText) ↔
      ∀ frame ∈ framer.frames, toSize frame.size ≤ frameCapacity := by
  have lengths : (∀ bytes ∈ wholeFrames heap framer, bytes.length ≤ frameCapacity) ↔
      ∀ frame ∈ framer.frames, toSize frame.size ≤ frameCapacity := by
    have same := map_length_wholeFrames heap framer
    constructor
    · intro fits frame member
      have listed : toSize frame.size ∈ (wholeFrames heap framer).map List.length := by
        rw [same]
        exact List.mem_map_of_mem member
      obtain ⟨bytes, membership, length_eq⟩ := List.mem_map.mp listed
      exact length_eq ▸ fits bytes membership
    · intro fits bytes member
      have listed : bytes.length ∈ framer.frames.map fun frame => toSize frame.size := by
        rw [← same]
        exact List.mem_map_of_mem member
      obtain ⟨frame, membership, size_eq⟩ := List.mem_map.mp listed
      exact size_eq ▸ fits frame membership
  rw [← lengths, forwardFrames_queued, List.append_cancel_left_eq, List.map_inj_left]
  refine forall₂_congr fun bytes _ => ?_
  rw [Write.frame.injEq, eq_self, true_and, List.take_eq_self_iff]

/-! ## The callback -/

/-- `cm_readcb` passes every frame on which the framer has queued, in order, each with all of its
bytes in one call. -/
def PassesWhole (env : Environment) (conn : Conn) (queue : Framer) : Prop :=
  (cmReadcb env conn).queued =
    conn.queued ++ (wholeFrames env.heap queue).map (.frame opcodeText)

theorem cmReadcb_queued {env : Environment} {conn : Conn} {bev : XmppBev} {framer : Framer}
    (bev_eq : conn.cm.bev = some bev) (framer_eq : conn.cm.framer = some framer)
    (accepted : (feedFramer env.expat framer bev.input).failed = false) :
    (cmReadcb env conn).queued =
      (forwardFrames env.heap (feedFramer env.expat framer bev.input).framer conn).2.queued := by
  simp [cmReadcb, bev_eq, framer_eq, accepted]

/-- Frames are passed on whole exactly when all of them fit into the buffer of `cm_readcb`. -/
theorem passesWhole_iff {env : Environment} {conn : Conn} {bev : XmppBev} {framer : Framer}
    (bev_eq : conn.cm.bev = some bev) (framer_eq : conn.cm.framer = some framer)
    (accepted : (feedFramer env.expat framer bev.input).failed = false) :
    PassesWhole env conn (feedFramer env.expat framer bev.input).framer ↔
      ∀ frame ∈ (feedFramer env.expat framer bev.input).framer.frames,
        toSize frame.size ≤ frameCapacity := by
  rw [PassesWhole, cmReadcb_queued bev_eq framer_eq accepted]
  exact forwardFrames_whole_iff env.heap _ conn

/-! ## The stream -/

/-- The complete stanzas and stream tags of what arrived in segments are written to the browser, in
order and each with all of its bytes in one call. -/
def ForwardsWhole (env : Environment) (conn : Conn) (document : Document)
    (segments : List (List UInt8)) : Prop :=
  forwarded env conn segments =
    some (conn.queued ++ (document.completed segments.flatten.length).map (.frame opcodeText))

/-- Items are written whole exactly when each of them fits into the buffer. -/
theorem map_written_eq_iff (items : List Item) :
    items.map Item.written = (items.map Item.bytes).map (.frame opcodeText) ↔
      ∀ item ∈ items, item.bytes.length ≤ frameCapacity := by
  rw [List.map_map, List.map_inj_left]
  refine forall₂_congr fun item _ => ?_
  rw [Function.comp_apply, Item.written, Write.frame.injEq, eq_self, true_and,
    List.take_eq_self_iff]

theorem Conn.Connected.forwarded_whole_iff {conn : Conn} (connected : conn.Connected)
    {env : Environment} {document : Document} {segments : List (List UInt8)}
    (understands : env.expat.Understands document)
    (beginning : segments.flatten <+: document.bytes)
    (plain : document.IsPlain segments.flatten) :
    ForwardsWhole env conn document segments ↔
      ∀ item ∈ document.items.filter fun item => item.stop ≤ segments.flatten.length,
        item.bytes.length ≤ frameCapacity := by
  rw [ForwardsWhole, connected.forwarded_plain understands beginning plain rfl,
    Option.some.injEq, List.append_cancel_left_eq]
  exact map_written_eq_iff _

/-- For a plain stream, in whatever segments it arrives: the complete stanzas and stream tags are
written whole exactly when each of them fits into the buffer of `cm_readcb`. -/
theorem forwardsWhole_iff {conn : Conn} (connected : conn.Connected) {env : Environment}
    {document : Document} {segments : List (List UInt8)}
    (understands : env.expat.Understands document)
    (beginning : segments.flatten <+: document.bytes)
    (plain : document.IsPlain segments.flatten) :
    ForwardsWhole env conn document segments ↔
      ∀ bytes ∈ document.completed segments.flatten.length, bytes.length ≤ frameCapacity := by
  rw [connected.forwarded_whole_iff understands beginning plain, Document.completed,
    List.forall_mem_map]

/-- The sample stream with its declaration arrives in two segments, the second one of which begins
with the header, and all of it is written whole. -/
theorem forwardsWhole_declaredStream :
    ForwardsWhole declaredEnvironment connectedConn declaredStream
      [declaredStream.bytes.take 21, declaredStream.bytes.drop 21] := by
  have whole : [declaredStream.bytes.take 21, declaredStream.bytes.drop 21].flatten =
      declaredStream.bytes := by
    decide +kernel
  refine (forwardsWhole_iff connected_connectedConn isDeclared_declaredStream.understands_parser
    (by rw [whole]) (by rw [whole]; exact isPlain_declaredStream)).mpr ?_
  decide +kernel

/-! ## A long stanza -/

/-- A stream with one stanza which contains some text. -/
def longStream (count : Nat) : Document :=
  { sampleStream with
    content := .element
      { name := text "u" ++ [0xFF] ++ text "a", attr := [], bytes := text "<stream:a>" }
      (.other (List.replicate count 0x61) .nil) (text "</stream:a>") .nil }

theorem isStream_longStream (count : Nat) : (longStream count).IsStream where
  root_name := isStream_sampleStream.root_name
  content_names := ⟨⟨text "a", by decide +kernel, by decide +kernel⟩, trivial, trivial⟩

theorem length_longStream (count : Nat) :
    (longStream count).bytes.length = 69 + count := by
  have header : sampleStream.root.bytes.length = 32 := by decide +kernel
  have opening : (text "<stream:a>").length = 10 := by decide +kernel
  have closing : (text "</stream:a>").length = 11 := by decide +kernel
  have ending : sampleStream.endTag.length = 16 := by decide +kernel
  have prolog : sampleStream.prolog = [] := rfl
  have epilog : sampleStream.epilog = [] := rfl
  simp only [longStream, Document.bytes, Content.bytes, List.length_append, List.length_nil,
    List.length_replicate, header, opening, closing, ending, prolog, epilog]
  omega

/-- The environment of a server which sends a long stanza. -/
def longEnvironment (count : Nat) : Environment :=
  { serverEnvironment with expat := Expat.reading (longStream count) }

/-- The stanza of the stream. -/
def longStanza (count : Nat) : Item :=
  { index := (longStream count).inner
    bytes := text "<stream:a>" ++ ((List.replicate count 0x61 ++ []) ++ text "</stream:a>") }

theorem length_longStanza (count : Nat) : (longStanza count).bytes.length = 21 + count := by
  have opening : (text "<stream:a>").length = 10 := by decide +kernel
  have closing : (text "</stream:a>").length = 11 := by decide +kernel
  simp only [longStanza, List.length_append, List.length_replicate, List.length_nil, opening,
    closing]
  omega

theorem inner_longStream (count : Nat) : (longStream count).inner = 32 := by
  have root : (longStream count).inner = sampleStream.inner := rfl
  rw [root]
  decide +kernel

/-- A stanza which is longer than the buffer is not written whole, although it arrives in one
segment. -/
theorem not_forwardsWhole_of_lt {count : Nat} (long : 65515 < count)
    (small : 69 + count < 2 ^ 31) :
    ¬ ForwardsWhole (longEnvironment count) connectedConn (longStream count)
      [(longStream count).bytes] := by
  have length_eq := length_longStream count
  have reads : (longEnvironment count).expat.Reads (longStream count) :=
    (longStream count).reads_reading (by rw [inner_longStream]; decide)
  have nonempty : (longStream count).bytes ≠ [] :=
    List.ne_nil_of_length_pos (by omega)
  have single := connected_connectedConn.forwarded_single nonempty ⟨reads, reads⟩ List.prefix_rfl
    (isStream_longStream count) (by omega)
  have listed : longStanza count ∈ (longStream count).items := by
    rw [Document.items]
    exact List.mem_cons_of_mem _ (List.mem_append_left _ List.mem_cons_self)
  have stanza_length := length_longStanza count
  have stop_eq : (longStanza count).stop = 53 + count := by
    have start : (longStanza count).index = 32 := inner_longStream count
    rw [Item.stop, stanza_length, start]
    omega
  have complete : longStanza count ∈ (longStream count).items.filter fun item =>
      item.stop ≤ (longStream count).bytes.length := by
    refine List.mem_filter.mpr ⟨listed, ?_⟩
    rw [stop_eq, length_eq, decide_eq_true_eq]
    omega
  intro whole
  rw [ForwardsWhole, List.flatten_singleton, single, Option.some.injEq,
    List.append_cancel_left_eq] at whole
  have fits := (map_written_eq_iff _).mp whole _ complete
  rw [stanza_length, frameCapacity] at fits
  omega

/-- A stanza of 65537 bytes is not written whole. -/
theorem not_forwardsWhole_longStream :
    ¬ ForwardsWhole (longEnvironment 65516) connectedConn (longStream 65516)
      [(longStream 65516).bytes] :=
  not_forwardsWhole_of_lt (by decide) (by decide)

end Jabsocket
