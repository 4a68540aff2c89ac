import Jabsocket.Connection
import Jabsocket.Receiver

/-!
# Frame lengths and the width of `size_t`

The receiver and the connection are mostly looked at where no frame length is negative and no sum
wraps.  This is what the program does in a `size_t` of 64 bits as long as it comes to no header
which announces 2^31 bytes or more.  Whether it does can be read off the bytes alone.
-/

namespace Jabsocket

/-! ## Byte strings -/

/-- No frame boundary of a byte string stands before an announced length of 2^31 or more. -/
def AllModerate (bytes : List UInt8) : Prop :=
  ∀ rest, Unpacks bytes rest → Moderate rest

theorem Unpacks.append {bytes rest : List UInt8} (unpacks : Unpacks bytes rest)
    (later : List UInt8) : Unpacks (bytes ++ later) (rest ++ later) := by
  induction unpacks with
  | refl => exact .refl
  | frame earlier found ih => exact ih.frame (frameScanner.scan_item_append later found)

theorem Unpacks.trans {bytes middle rest : List UInt8} (first : Unpacks bytes middle)
    (second : Unpacks middle rest) : Unpacks bytes rest := by
  induction second with
  | refl => exact first
  | frame _ found ih => exact ih.frame found

/-- Either nothing is taken out, or the first frame is. -/
theorem unpacks_iff {bytes rest : List UInt8} :
    Unpacks bytes rest ↔ rest = bytes ∨
      ∃ frame next, scanFrame bytes = .item frame next ∧ Unpacks next rest := by
  constructor
  · intro unpacks
    induction unpacks with
    | refl => exact Or.inl rfl
    | frame earlier found ih =>
        obtain rfl | ⟨frame, next, first, later⟩ := ih
        · exact Or.inr ⟨_, _, found, .refl⟩
        · exact Or.inr ⟨frame, next, first, later.frame found⟩
  · rintro (rfl | ⟨frame, next, found, later⟩)
    · exact .refl
    · exact (Unpacks.refl.frame found).trans later

theorem allModerate_iff {bytes : List UInt8} :
    AllModerate bytes ↔ Moderate bytes ∧
      ∀ frame next, scanFrame bytes = .item frame next → AllModerate next := by
  constructor
  · intro moderate
    exact ⟨moderate bytes .refl, fun frame next found rest unpacks =>
      moderate rest (unpacks_iff.mpr (Or.inr ⟨frame, next, found, unpacks⟩))⟩
  · rintro ⟨first, later⟩ rest unpacks
    obtain rfl | ⟨frame, next, found, unpacks⟩ := unpacks_iff.mp unpacks
    · exact first
    · exact later frame next found rest unpacks

/-- Follow the frames of a byte string, which are not more than its bytes. -/
def moderateWithin : Nat → List UInt8 → Bool
  | 0, bytes => decide (Moderate bytes)
  | count + 1, bytes =>
      decide (Moderate bytes) &&
        match scanFrame bytes with
        | .item _ next => moderateWithin count next
        | .more | .fail => true

theorem moderateWithin_iff {count : Nat} {bytes : List UInt8} (enough : bytes.length ≤ count) :
    moderateWithin count bytes = true ↔ AllModerate bytes := by
  induction count generalizing bytes with
  | zero =>
      have empty : bytes = [] := List.length_eq_zero_iff.mp (Nat.le_zero.mp enough)
      rw [allModerate_iff, moderateWithin, decide_eq_true_iff, and_iff_left]
      intro frame next found
      rw [empty] at found
      cases found
  | succ count ih =>
      rw [allModerate_iff, moderateWithin, Bool.and_eq_true, decide_eq_true_iff]
      refine and_congr_right fun _ => ?_
      cases found : scanFrame bytes with
      | item value rest =>
          have shorter := frameScanner.rest_length_lt found
          dsimp only
          rw [ih (by omega)]
          refine ⟨fun later frame next same => ?_, fun later => later value rest rfl⟩
          obtain ⟨rfl, rfl⟩ := Scan.item.inj same
          exact later
      | more => simp
      | fail => simp

instance decidableAllModerate (bytes : List UInt8) : Decidable (AllModerate bytes) :=
  decidable_of_iff (moderateWithin bytes.length bytes = true)
    (moderateWithin_iff (Nat.le_refl _))

namespace AllModerate

variable {bytes rest : List UInt8}

theorem of_unpacks (moderate : AllModerate bytes) (unpacks : Unpacks bytes rest) :
    AllModerate rest :=
  fun last later => moderate last (unpacks.trans later)

theorem of_append {later : List UInt8} (moderate : AllModerate (bytes ++ later)) :
    AllModerate bytes :=
  fun rest unpacks => (moderate (rest ++ later) (unpacks.append later)).of_append

theorem of_isPrefix {whole : List UInt8} (moderate : AllModerate whole)
    (beginning : bytes <+: whole) : AllModerate bytes := by
  obtain ⟨later, rfl⟩ := beginning
  exact moderate.of_append

/-- The front is moderate, so the width of `size_t` does not matter there. -/
theorem honest {sizeMod : Nat} (large : 2 ^ 33 ≤ sizeMod) (moderate : AllModerate bytes) :
    Honest sizeMod bytes :=
  Or.inr ⟨large, moderate bytes .refl⟩

end AllModerate

/-! ## The receiver -/

/-- A round takes whole frames out of `frame_buffer`. -/
theorem unpacks_wsmsgProcessRound {heap : Heap} {wsmsg next : WsMsg}
    (outcome : wsmsgProcessRound 0 heap wsmsg = .again next ∨
      wsmsgProcessRound 0 heap wsmsg = .leave next) :
    Unpacks wsmsg.frameBuffer.data next.frameBuffer.data := by
  have honest := honest_zero wsmsg.frameBuffer.data
  unfold wsmsgProcessRound at outcome
  cases found : scanFrame wsmsg.frameBuffer.data with
  | more =>
      obtain ⟨stored, building, -⟩ := getFrame_of_more heap honest wsmsg.frameData found
      rw [building] at outcome
      obtain rfl : _ = next := by simpa using outcome
      exact .refl
  | fail =>
      rw [getFrame_of_fail heap found] at outcome
      obtain rfl : _ = next := by simpa using outcome
      exact .refl
  | item frame rest =>
      obtain ⟨stored, ready, -⟩ := getFrame_of_item heap honest wsmsg.frameData found
      have taken : Unpacks wsmsg.frameBuffer.data rest := Unpacks.refl.frame found
      rw [ready] at outcome
      dsimp only at outcome
      repeat' split at outcome
      all_goals
        obtain rfl : _ = next := by simpa using outcome
        exact taken

theorem unpacks_of_visits {heap : Heap} {wsmsg visited : WsMsg}
    (visits : Loop.Visits (wsmsgProcessRound 0 heap) wsmsg visited) :
    Unpacks wsmsg.frameBuffer.data visited.frameBuffer.data := by
  induction visits with
  | start => exact .refl
  | round again _ ih => exact (unpacks_wsmsgProcessRound (Or.inl again)).trans ih

theorem unpacks_wsmsgProcess (heap : Heap) (wsmsg : WsMsg) :
    Unpacks wsmsg.frameBuffer.data (wsmsgProcess 0 heap wsmsg).frameBuffer.data := by
  unfold wsmsgProcess
  split
  · exact .refl
  · exact Loop.run_induction (fun state => Unpacks wsmsg.frameBuffer.data state.frameBuffer.data)
      (fun state => Unpacks wsmsg.frameBuffer.data state.frameBuffer.data)
      (wsmsgProcessRound_decreasing heap)
      (fun _ _ unpacks again => unpacks.trans (unpacks_wsmsgProcessRound (Or.inl again)))
      (fun _ _ unpacks leave => unpacks.trans (unpacks_wsmsgProcessRound (Or.inr leave))) .refl

section Receiver

variable {sizeMod : Nat} {wsmsg : WsMsg} (heap : Heap)

theorem wsmsgProcessRound_of_honest (honest : Honest sizeMod wsmsg.frameBuffer.data) :
    wsmsgProcessRound sizeMod heap wsmsg = wsmsgProcessRound 0 heap wsmsg := by
  rw [wsmsgProcessRound, wsmsgProcessRound, honest.getFrame_eq]

variable (large : 2 ^ 33 ≤ sizeMod)

include large

theorem wsmsgProcessRound_of_visits (moderate : AllModerate wsmsg.frameBuffer.data)
    (visited : WsMsg) (visits : Loop.Visits (wsmsgProcessRound 0 heap) wsmsg visited) :
    wsmsgProcessRound sizeMod heap visited = wsmsgProcessRound 0 heap visited :=
  wsmsgProcessRound_of_honest heap ((moderate.of_unpacks (unpacks_of_visits visits)).honest large)

theorem wsmsgProcessLoop_of_moderate (moderate : AllModerate wsmsg.frameBuffer.data) :
    wsmsgProcessLoop sizeMod heap wsmsg = wsmsgProcessLoop 0 heap wsmsg :=
  Loop.run_congr _ (wsmsgProcessRound_of_visits heap large moderate)

theorem visits_of_moderate (moderate : AllModerate wsmsg.frameBuffer.data) {visited : WsMsg} :
    Loop.Visits (wsmsgProcessRound sizeMod heap) wsmsg visited ↔
      Loop.Visits (wsmsgProcessRound 0 heap) wsmsg visited :=
  Loop.visits_congr (wsmsgProcessRound_of_visits heap large moderate)

theorem wsmsgProcess_of_moderate (moderate : AllModerate wsmsg.frameBuffer.data) :
    wsmsgProcess sizeMod heap wsmsg = wsmsgProcess 0 heap wsmsg := by
  rw [wsmsgProcess, wsmsgProcess, wsmsgProcessLoop_of_moderate heap large moderate]

theorem wsmsgGetFrame_of_moderate (moderate : AllModerate wsmsg.frameBuffer.data)
    (buffer : Buffer) (fin : Bool) (opcode : Nat) (mask : Bool) :
    wsmsgGetFrame sizeMod heap wsmsg buffer fin opcode mask =
      wsmsgGetFrame 0 heap wsmsg buffer fin opcode mask := by
  unfold wsmsgGetFrame
  dsimp only
  rw [wsmsgProcess_of_moderate heap large]
  exact moderate

theorem wsmsgGetMessage_of_moderate (moderate : AllModerate wsmsg.frameBuffer.data)
    (buffer : Buffer) (opcode : Nat) :
    wsmsgGetMessage sizeMod heap wsmsg buffer opcode =
      wsmsgGetMessage 0 heap wsmsg buffer opcode := by
  unfold wsmsgGetMessage
  dsimp only
  rw [wsmsgProcess_of_moderate heap large]
  exact moderate

omit large in
/-- What `wsmsg_add` stores is the front of what is there and what arrives. -/
theorem bufferAppend_isPrefix (buffer : Buffer) (input : List UInt8) :
    (bufferAppend 0 buffer input).1.data <+: buffer.data ++ input := by
  unfold bufferAppend
  dsimp only
  split_ifs
  · exact List.prefix_append _ _
  all_goals first
    | exact List.prefix_append _ _
    | exact (List.prefix_append_right_inj _).mpr (List.take_prefix _ _)

theorem wsmsgAdd_of_moderate {data : List UInt8}
    (moderate : AllModerate (wsmsg.frameBuffer.data ++ data)) :
    wsmsgAdd sizeMod heap wsmsg data = wsmsgAdd 0 heap wsmsg data := by
  have stored := bufferAppend_isPrefix wsmsg.frameBuffer data
  unfold wsmsgAdd
  generalize bufferAppend 0 wsmsg.frameBuffer data = outcome at stored
  obtain ⟨frameBuffer, result⟩ := outcome
  cases result with
  | false => rfl
  | true =>
      dsimp only
      rw [wsmsgProcess_of_moderate heap large]
      exact moderate.of_isPrefix stored

end Receiver

theorem unpacks_wsmsgGetFrame (heap : Heap) (wsmsg : WsMsg) (buffer : Buffer) (fin : Bool)
    (opcode : Nat) (mask : Bool) :
    Unpacks wsmsg.frameBuffer.data
      (wsmsgGetFrame 0 heap wsmsg buffer fin opcode mask).wsmsg.frameBuffer.data := by
  unfold wsmsgGetFrame
  split
  · exact .refl
  · exact unpacks_wsmsgProcess heap
      { wsmsg with frame := false, frameData := (bufferMove 0 wsmsg.frameData buffer).1 }

theorem unpacks_wsmsgGetMessage (heap : Heap) (wsmsg : WsMsg) (buffer : Buffer) (opcode : Nat) :
    Unpacks wsmsg.frameBuffer.data
      (wsmsgGetMessage 0 heap wsmsg buffer opcode).wsmsg.frameBuffer.data := by
  unfold wsmsgGetMessage
  split
  · exact .refl
  · exact unpacks_wsmsgProcess heap
      { wsmsg with
        message := false
        messageStarted := false
        messageBuffer := (bufferMove 0 wsmsg.messageBuffer buffer).1 }

/-! ## The connection -/

/-- A handler call does not bring bytes which come to a large announced length. -/
def ReadsModerate (conn : Conn) : Label → Prop
  | .read bytes _ =>
      conn.wsState = .receiving → AllModerate (conn.wsmsg.frameBuffer.data ++ (conn.input ++ bytes))
  | .write _ | .event _ | .managerRead _ | .managerEvent _ => True

instance decidableReadsModerate (conn : Conn) : ∀ label, Decidable (ReadsModerate conn label)
  | .read bytes _ =>
      inferInstanceAs (Decidable (conn.wsState = .receiving →
        AllModerate (conn.wsmsg.frameBuffer.data ++ (conn.input ++ bytes))))
  | .write _ => isTrue trivial
  | .event _ => isTrue trivial
  | .managerRead _ => isTrue trivial
  | .managerEvent _ => isTrue trivial

theorem unpacks_of_frameStep {env : Environment} {sync : Bool} {conn next : Conn}
    (again : frameRound env sync conn = .again next) :
    Unpacks conn.wsmsg.frameBuffer.data next.wsmsg.frameBuffer.data := by
  cases frameStep_of_eq again with
  | control => exact unpacks_wsmsgGetFrame env.heap conn.wsmsg _ _ _ _
  | text =>
      rw [cmOnmessage_wsmsg]
      exact unpacks_wsmsgGetMessage env.heap conn.wsmsg _ _
  | other => exact unpacks_wsmsgGetMessage env.heap conn.wsmsg _ _

theorem unpacks_of_frameVisits {env : Environment} {sync : Bool} {conn visited : Conn}
    (visits : Loop.Visits (frameRound env sync) conn visited) :
    Unpacks conn.wsmsg.frameBuffer.data visited.wsmsg.frameBuffer.data := by
  induction visits with
  | start => exact .refl
  | round again _ ih => exact (unpacks_of_frameStep again).trans ih

section Connection

variable {sizeMod : Nat} (large : 2 ^ 33 ≤ sizeMod) (env : Environment) (sync : Bool) {conn : Conn}

include large

theorem frameRoundSized_of_moderate (moderate : AllModerate conn.wsmsg.frameBuffer.data) :
    frameRoundSized sizeMod env sync conn = frameRound env sync conn := by
  unfold frameRound frameRoundSized
  rw [wsmsgGetFrame_of_moderate env.heap large moderate,
    wsmsgGetMessage_of_moderate env.heap large moderate]

theorem frameRoundSized_of_visits (moderate : AllModerate conn.wsmsg.frameBuffer.data)
    (visited : Conn) (visits : Loop.Visits (frameRound env sync) conn visited) :
    frameRoundSized sizeMod env sync visited = frameRound env sync visited :=
  frameRoundSized_of_moderate large env sync (moderate.of_unpacks (unpacks_of_frameVisits visits))

theorem wsconnProcessFrameSized_of_moderate
    (moderate : AllModerate (conn.wsmsg.frameBuffer.data ++ conn.input)) :
    wsconnProcessFrameSized sizeMod env conn sync = wsconnProcessFrame env conn sync := by
  have stored := bufferAppend_isPrefix conn.wsmsg.frameBuffer conn.input
  have received : AllModerate (wsmsgAdd 0 env.heap conn.wsmsg conn.input).1.frameBuffer.data := by
    unfold wsmsgAdd
    generalize bufferAppend 0 conn.wsmsg.frameBuffer conn.input = outcome at stored
    obtain ⟨frameBuffer, result⟩ := outcome
    cases result with
    | false => exact moderate.of_isPrefix stored
    | true =>
        exact (moderate.of_isPrefix stored).of_unpacks
          (unpacks_wsmsgProcess env.heap { conn.wsmsg with frameBuffer })
  rw [wsconnProcessFrameSized, wsconnProcessFrame_def, wsmsgAdd_of_moderate env.heap large moderate]
  exact Loop.run_congr _ (frameRoundSized_of_visits large env sync received)

theorem wsconnReadCbSized_of_moderate
    (moderate : conn.wsState = .receiving →
      AllModerate (conn.wsmsg.frameBuffer.data ++ conn.input)) :
    wsconnReadCbSized sizeMod env conn sync = wsconnReadCb env conn sync := by
  rw [wsconnReadCb_def, wsconnReadCbSized]
  cases state : conn.wsState with
  | receiving => exact wsconnProcessFrameSized_of_moderate large env sync (moderate state)
  | start => rfl
  | closing => rfl
  | closed => rfl

omit sync in
/-- Where no read brings a large announced length, the program steps as it does where no frame
length is negative and no sum wraps. -/
theorem connStepSized_of_moderate (conn : Conn) (label : Label)
    (moderate : ReadsModerate conn label) :
    connStepSized sizeMod env conn label = connStep env conn label := by
  cases label with
  | read bytes sync =>
      simp only [connStep, connStepSized]
      rw [@wsconnReadCbSized_of_moderate _ large env sync
        { conn with input := conn.input ++ bytes } moderate]
      rfl
  | write sent => rfl
  | event events => rfl
  | managerRead bytes => rfl
  | managerEvent events => rfl

end Connection

/-- Connections of the program in a `size_t` of 64 bits which have read no large announced
length. -/
def ReachedModerately (env : Environment) (conn : Conn) : Prop :=
  ∃ labels, Execution.run (connStepSized (2 ^ 64) env) (wsconnCreate env) labels = some conn ∧
    Execution.Guarded (connStepSized (2 ^ 64) env) ReadsModerate (wsconnCreate env) labels

theorem ReachedModerately.reachable {env : Environment} {conn : Conn}
    (reached : ReachedModerately env conn) : Reachable env conn := by
  obtain ⟨labels, execution, moderate⟩ := reached
  refine ⟨labels, ?_⟩
  rw [← Execution.run_congr (connStepSized_of_moderate (by decide) env) moderate]
  exact execution

end Jabsocket
