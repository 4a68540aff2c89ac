import Jabsocket.Message

/-!
# Reassembly of grouped frames

The receiver handles the frames completed by one chunk as a group.  A message which is complete
in the middle of a group stays in the message buffer, still marked as started, until the group
is exhausted or a control frame is parked.  `sequential` is reassembly one frame at a time;
this file determines the frame sequences on which every grouping agrees with it.
-/

namespace Jabsocket

/-- A message being assembled. -/
structure Draft where
  opcode : Nat
  payload : List UInt8
  deriving DecidableEq, Repr

/-- What the receiver hands to its caller. -/
inductive Delivery where
  | control (opcode : Nat) (payload : List UInt8)
  | message (opcode : Nat) (payload : List UInt8)
  deriving DecidableEq, Repr

/-- What the message buffer holds. -/
inductive Stage where
  | idle
  | started (draft : Draft)
  | complete (draft : Draft)
  deriving DecidableEq, Repr

namespace Stage

/-- Take a complete message. -/
def flush : Stage → List Delivery
  | complete draft => [.message draft.opcode draft.payload]
  | idle | started _ => []

/-- The stage after a complete message was taken. -/
def settle : Stage → Stage
  | complete _ => idle
  | stage => stage

/-- No complete message is waiting. -/
def Settled : Stage → Prop
  | complete _ => False
  | idle | started _ => True

/-- Whether a data frame may follow: a continuation exactly when a message was started. -/
def accepts (stage : Stage) (frame : Frame) : Bool :=
  match stage with
  | idle => frame.opcode != opcodeContinuation
  | started _ | complete _ => frame.opcode == opcodeContinuation

/-- The draft with a data frame added. -/
def draftWith (stage : Stage) (frame : Frame) : Draft :=
  match stage with
  | idle => { opcode := frame.opcode, payload := frame.payload }
  | started draft | complete draft => { draft with payload := draft.payload ++ frame.payload }

/-- The stage after an accepted data frame; a complete message stays complete. -/
def extend (stage : Stage) (frame : Frame) : Stage :=
  match stage with
  | complete _ => complete (stage.draftWith frame)
  | idle | started _ =>
      if frame.fin then complete (stage.draftWith frame) else started (stage.draftWith frame)

/-- A message was started and not taken. -/
def isOpen : Stage → Bool
  | idle => false
  | started _ | complete _ => true

/-- A complete message is waiting. -/
def isComplete : Stage → Bool
  | complete _ => true
  | idle | started _ => false

/-- What has been assembled so far. -/
def draft : Stage → Draft
  | idle => { opcode := 0, payload := [] }
  | started draft | complete draft => draft

theorem accepts_eq (stage : Stage) (frame : Frame) :
    stage.accepts frame = (stage.isOpen == (frame.opcode == opcodeContinuation)) := by
  cases stage <;> simp [accepts, isOpen, bne]

theorem extend_eq (stage : Stage) (frame : Frame) :
    stage.extend frame =
      if stage.isComplete || frame.fin then complete (stage.draftWith frame)
      else started (stage.draftWith frame) := by
  cases stage <;> simp [extend, isComplete]

@[simp] theorem isOpen_extend (stage : Stage) (frame : Frame) :
    (stage.extend frame).isOpen = true := by
  rw [extend_eq]
  split <;> rfl

@[simp] theorem isComplete_extend (stage : Stage) (frame : Frame) :
    (stage.extend frame).isComplete = (stage.isComplete || frame.fin) := by
  rw [extend_eq]
  split <;> simp_all [isComplete]

@[simp] theorem draft_extend (stage : Stage) (frame : Frame) :
    (stage.extend frame).draft = stage.draftWith frame := by
  rw [extend_eq]
  split <;> rfl

theorem draftWith_eq (stage : Stage) (frame : Frame) :
    stage.draftWith frame =
      { opcode := if stage.isOpen then stage.draft.opcode else frame.opcode
        payload := stage.draft.payload ++ frame.payload } := by
  cases stage <;> simp [draftWith, isOpen, draft]

theorem flush_of_isComplete {stage : Stage} (waiting : stage.isComplete = true) :
    stage.flush = [.message stage.draft.opcode stage.draft.payload] ∧ stage.settle = idle := by
  cases stage <;> simp_all [isComplete, flush, draft, settle]

theorem settled_idle : idle.Settled := trivial

theorem settled_iff {stage : Stage} : stage.Settled ↔ stage.isComplete = false := by
  cases stage <;> simp [Settled, isComplete]

@[simp] theorem flush_of_settled {stage : Stage} (settled : stage.Settled) :
    stage.flush = [] := by
  cases stage <;> simp_all [flush, Settled]

@[simp] theorem settle_of_settled {stage : Stage} (settled : stage.Settled) :
    stage.settle = stage := by
  cases stage <;> simp_all [settle, Settled]

theorem extend_of_settled {stage : Stage} (settled : stage.Settled) (frame : Frame) :
    stage.extend frame =
      if frame.fin then complete (stage.draftWith frame) else started (stage.draftWith frame) := by
  cases stage <;> simp_all [extend, Settled]

end Stage

/-- Deliveries and failure of a run, behind earlier deliveries. -/
def prepend (deliveries : List Delivery) (outcome : List Delivery × Bool) :
    List Delivery × Bool :=
  (deliveries ++ outcome.1, outcome.2)

@[simp] theorem prepend_nil (outcome : List Delivery × Bool) : prepend [] outcome = outcome := rfl

@[simp] theorem prepend_prepend (first second : List Delivery) (outcome : List Delivery × Bool) :
    prepend first (prepend second outcome) = prepend (first ++ second) outcome := by
  simp [prepend]

/-- Handle one group; the last stage is absent when the receiver failed. -/
def batch : Stage → List (Piece Frame) → List Delivery × Option Stage
  | stage, [] => (stage.flush, some stage.settle)
  | stage, .bad :: _ => (stage.flush, none)
  | stage, .item frame :: group =>
      if isControl frame.opcode then
        if frame.fin then
          let later := batch stage.settle group
          (.control frame.opcode frame.payload :: stage.flush ++ later.1, later.2)
        else (stage.flush, none)
      else if stage.accepts frame then batch (stage.extend frame) group
      else (stage.flush, none)

/-- Handle groups in order until the receiver fails. -/
def runGroups : Stage → List (List (Piece Frame)) → List Delivery × Bool
  | _, [] => ([], false)
  | stage, group :: groups =>
      match batch stage group with
      | (deliveries, none) => (deliveries, true)
      | (deliveries, some next) => prepend deliveries (runGroups next groups)

/-- Reassembly one frame at a time. -/
def sequential : Stage → List (Piece Frame) → List Delivery × Bool
  | _, [] => ([], false)
  | _, .bad :: _ => ([], true)
  | stage, .item frame :: pieces =>
      if isControl frame.opcode then
        if frame.fin then
          prepend [.control frame.opcode frame.payload] (sequential stage pieces)
        else ([], true)
      else if stage.accepts frame then
        prepend (stage.extend frame).flush (sequential (stage.extend frame).settle pieces)
      else ([], true)

/-- A fragmented control frame, or a data frame out of sequence. -/
def Stage.Refuses (stage : Stage) (frame : Frame) : Prop :=
  if isControl frame.opcode then frame.fin = false else stage.accepts frame = false

theorem batch_of_refuses {stage : Stage} {frame : Frame} (refuses : stage.Refuses frame)
    (group : List (Piece Frame)) : batch stage (.item frame :: group) = (stage.flush, none) := by
  unfold Stage.Refuses at refuses
  by_cases control : isControl frame.opcode <;> simp_all [batch]

/-- A group which is handled to its end was not rejected, and leaves no message waiting. -/
theorem batch_some {stage next : Stage} {group : List (Piece Frame)}
    (finished : (batch stage group).2 = some next) : .bad ∉ group ∧ next.Settled := by
  induction group generalizing stage with
  | nil =>
      obtain rfl : stage.settle = next := by simpa [batch] using finished
      exact ⟨by simp, by cases stage <;> trivial⟩
  | cons piece group ih =>
      cases piece with
      | bad => simp [batch] at finished
      | item frame =>
          by_cases refuses : stage.Refuses frame
          · simp [batch_of_refuses refuses] at finished
          unfold Stage.Refuses at refuses
          by_cases control : isControl frame.opcode
          · have later : (batch stage.settle group).2 = some next := by simp_all [batch]
            exact ⟨by simp [(ih later).1], (ih later).2⟩
          · have later : (batch (stage.extend frame) group).2 = some next := by
              simp_all [batch]
            exact ⟨by simp [(ih later).1], (ih later).2⟩

section Equations

variable (stage : Stage) (frame : Frame) (group : List (Piece Frame))
  (groups : List (List (Piece Frame)))

theorem runGroups_nil_cons :
    runGroups stage ([] :: groups) = prepend stage.flush (runGroups stage.settle groups) := rfl

theorem runGroups_bad_cons : runGroups stage ((.bad :: group) :: groups) = (stage.flush, true) :=
  rfl

theorem runGroups_item_cons :
    runGroups stage ((.item frame :: group) :: groups) =
      if isControl frame.opcode then
        if frame.fin then
          prepend (.control frame.opcode frame.payload :: stage.flush)
            (runGroups stage.settle (group :: groups))
        else (stage.flush, true)
      else if stage.accepts frame then runGroups (stage.extend frame) (group :: groups)
      else (stage.flush, true) := by
  by_cases control : isControl frame.opcode
  · by_cases final : frame.fin
    · rcases later : batch stage.settle group with ⟨deliveries, next⟩
      cases next <;> simp [runGroups, batch, control, final, later, prepend]
    · simp [runGroups, batch, control, final]
  · by_cases accepted : stage.accepts frame <;> simp [runGroups, batch, control, accepted]

end Equations

/-- Groups of at most one piece are reassembled one frame at a time. -/
theorem runGroups_small {stage : Stage} (settled : stage.Settled)
    {groups : List (List (Piece Frame))} (small : ∀ group ∈ groups, group.length ≤ 1) :
    runGroups stage groups = sequential stage groups.flatten := by
  induction groups generalizing stage with
  | nil => rfl
  | cons group groups ih =>
      have later : ∀ group ∈ groups, group.length ≤ 1 :=
        fun group member => small group (List.mem_cons_of_mem _ member)
      have first := small group List.mem_cons_self
      match group, first with
      | [], _ => simp [runGroups_nil_cons, settled, ih settled later]
      | [.bad], _ => simp [runGroups_bad_cons, sequential, settled]
      | [.item frame], _ =>
          rw [runGroups_item_cons, List.flatten_cons, List.singleton_append, sequential]
          split
          · simp [runGroups_nil_cons, settled, ih settled later]
          · split
            · have next : (stage.extend frame).settle.Settled := by
                rw [Stage.extend_of_settled settled]
                split <;> trivial
              rw [runGroups_nil_cons, ih next later]
            · simp [settled]

/-- Singleton groups are reassembled one frame at a time. -/
theorem runGroups_singletons {stage : Stage} (settled : stage.Settled)
    (pieces : List (Piece Frame)) :
    runGroups stage (pieces.map fun piece => [piece]) = sequential stage pieces := by
  rw [runGroups_small settled (by simp), ← List.flatMap_def, List.flatMap_singleton']

/-! ## Frame sequences on which all groupings agree -/

/-- A started message which fails before anything is delivered. -/
def deadDraft : List (Piece Frame) → Bool
  | [] => false
  | .bad :: _ => true
  | .item frame :: pieces =>
      if isControl frame.opcode then !frame.fin
      else if frame.opcode == opcodeContinuation then !frame.fin && deadDraft pieces
      else true

/-- What may follow a complete message without being noticed: empty continuations, then a
failure before anything is delivered. -/
def deadEnd : List (Piece Frame) → Bool
  | [] => false
  | .bad :: _ => true
  | .item frame :: pieces =>
      if isControl frame.opcode then !frame.fin
      else if frame.opcode == opcodeContinuation then frame.payload == [] && deadEnd pieces
      else !frame.fin && deadDraft pieces

/-- Nothing but a dead end follows the first complete message. -/
def undisturbed : Stage → List (Piece Frame) → Bool
  | _, [] => true
  | _, .bad :: _ => true
  | stage, .item frame :: pieces =>
      if isControl frame.opcode then !frame.fin || undisturbed stage pieces
      else if stage.accepts frame then
        if frame.fin then pieces.isEmpty || deadEnd pieces
        else undisturbed (stage.extend frame) pieces
      else true

/-- A dead draft fails silently, however its frames are grouped. -/
theorem runGroups_of_deadDraft (draft : Draft) (group : List (Piece Frame))
    (groups : List (List (Piece Frame)))
    (dead : deadDraft (group ++ groups.flatten) = true) :
    runGroups (.started draft) (group :: groups) = ([], true) := by
  induction group, groups using grouped_induction generalizing draft with
  | finish => simp [deadDraft] at dead
  | next group groups ih =>
      rw [runGroups_nil_cons]
      simpa [Stage.flush, Stage.settle] using ih draft (by simpa using dead)
  | cons piece group groups ih =>
      cases piece with
      | bad => rfl
      | item frame =>
          rw [runGroups_item_cons]
          simp only [List.cons_append, deadDraft] at dead
          by_cases control : isControl frame.opcode
          · simp_all [Stage.flush]
          · by_cases continuation : frame.opcode = opcodeContinuation
            · simp_all [Stage.accepts, Stage.extend]
            · simp_all [Stage.accepts, Stage.flush]

/-- After a message was taken, a dead end fails silently. -/
theorem runGroups_idle_of_deadEnd (group : List (Piece Frame))
    (groups : List (List (Piece Frame))) (dead : deadEnd (group ++ groups.flatten) = true) :
    runGroups .idle (group :: groups) = ([], true) := by
  induction group, groups using grouped_induction with
  | finish => simp [deadEnd] at dead
  | next group groups ih =>
      rw [runGroups_nil_cons]
      simpa [Stage.flush, Stage.settle] using ih (by simpa using dead)
  | cons piece group groups ih =>
      cases piece with
      | bad => rfl
      | item frame =>
          rw [runGroups_item_cons]
          simp only [List.cons_append, deadEnd] at dead
          by_cases control : isControl frame.opcode
          · simp_all [Stage.flush]
          · by_cases continuation : frame.opcode = opcodeContinuation
            · simp_all [Stage.accepts, Stage.flush]
            · simp_all [Stage.accepts, Stage.extend, runGroups_of_deadDraft]

/-- A message which is still waiting survives a dead end unchanged. -/
theorem runGroups_complete_of_deadEnd (draft : Draft) (group : List (Piece Frame))
    (groups : List (List (Piece Frame))) (dead : deadEnd (group ++ groups.flatten) = true) :
    runGroups (.complete draft) (group :: groups) =
      ([.message draft.opcode draft.payload], true) := by
  induction group, groups using grouped_induction with
  | finish => simp [deadEnd] at dead
  | next group groups ih =>
      rw [runGroups_nil_cons]
      simp only [Stage.flush, Stage.settle, runGroups_idle_of_deadEnd group groups
        (by simpa using dead)]
      rfl
  | cons piece group groups ih =>
      cases piece with
      | bad => rfl
      | item frame =>
          rw [runGroups_item_cons]
          simp only [List.cons_append, deadEnd] at dead
          by_cases control : isControl frame.opcode
          · simp_all [Stage.flush]
          · by_cases continuation : frame.opcode = opcodeContinuation
            · simp_all [Stage.accepts, Stage.extend, Stage.draftWith]
            · simp_all [Stage.accepts, Stage.flush]

theorem sequential_of_deadEnd {pieces : List (Piece Frame)} (dead : deadEnd pieces = true) :
    sequential .idle pieces = ([], true) := by
  have grouped := runGroups_idle_of_deadEnd [] (pieces.map fun piece => [piece])
    (by simpa [← List.flatMap_def] using dead)
  rw [runGroups_nil_cons] at grouped
  rw [← runGroups_singletons Stage.settled_idle]
  simpa [Stage.flush, Stage.settle] using grouped

theorem runGroups_of_flatten_nil {stage : Stage} (settled : stage.Settled)
    {groups : List (List (Piece Frame))} (empty : groups.flatten = []) :
    runGroups stage groups = ([], false) := by
  induction groups with
  | nil => rfl
  | cons group groups ih =>
      rw [List.flatten_cons, List.append_eq_nil_iff] at empty
      obtain ⟨rfl, rest⟩ := empty
      simp [runGroups_nil_cons, settled, ih rest]

/-- On an undisturbed sequence every grouping is reassembled one frame at a time. -/
theorem runGroups_of_undisturbed (stage : Stage) (settled : stage.Settled)
    (group : List (Piece Frame)) (groups : List (List (Piece Frame)))
    (calm : undisturbed stage (group ++ groups.flatten) = true) :
    runGroups stage (group :: groups) = sequential stage (group ++ groups.flatten) := by
  induction group, groups using grouped_induction generalizing stage with
  | finish =>
      rw [runGroups_of_flatten_nil settled rfl]
      rfl
  | next group groups ih =>
      rw [runGroups_nil_cons]
      simpa [settled] using ih stage settled (by simpa using calm)
  | cons piece group groups ih =>
      cases piece with
      | bad => simp [runGroups_bad_cons, sequential, settled]
      | item frame =>
          rw [runGroups_item_cons, List.cons_append, sequential]
          simp only [List.cons_append, undisturbed] at calm
          by_cases control : isControl frame.opcode
          · by_cases final : frame.fin
            · simp_all
            · simp_all
          · by_cases accepted : stage.accepts frame
            · by_cases final : frame.fin
              · have extended := Stage.extend_of_settled settled frame
                simp only [final, if_true] at extended
                simp only [control, accepted, final, if_true, Bool.false_eq_true, if_false,
                  Bool.or_eq_true, List.isEmpty_iff] at calm
                simp only [control, accepted, if_true, Bool.false_eq_true, if_false, extended]
                obtain empty | dead := calm
                · obtain ⟨rfl, later⟩ := List.append_eq_nil_iff.mp empty
                  rw [runGroups_nil_cons, later]
                  simp [Stage.settle, runGroups_of_flatten_nil Stage.settled_idle later,
                    sequential]
                · rw [runGroups_complete_of_deadEnd _ _ _ dead]
                  simp [Stage.settle, Stage.flush, sequential_of_deadEnd dead, prepend]
              · have extended := Stage.extend_of_settled settled frame
                simp only [final, Bool.false_eq_true, if_false] at extended
                simp_all [Stage.Settled, Stage.flush, Stage.settle]
            · simp_all

end Jabsocket
