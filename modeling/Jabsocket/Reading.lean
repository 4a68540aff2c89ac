import Jabsocket.Headers

/-!
# Reading a request line by line

What the request parser has read is described without its buffers: the part of a header collected
so far, the tokens of the request line and the headers processed.  The parser follows this
description as long as the collected part leaves a byte of the line buffer for the NUL.
-/

namespace Jabsocket

/-- What has been read of a request. -/
structure Reading where
  started : Bool
  current : List UInt8
  done : Bool
  error : Bool
  method : List UInt8
  resource : List UInt8
  protocol : List UInt8
  headers : List Header
  deriving DecidableEq, Repr

namespace Reading

/-- Nothing is read yet. -/
def fresh : Reading :=
  { started := false
    current := []
    done := false
    error := false
    method := []
    resource := []
    protocol := []
    headers := [] }

/-- Read a request line. -/
def addRequestLine (reading : Reading) (line : List UInt8) : Reading :=
  match tokens isBlank line with
  | [] => { reading with error := true }
  | [method] => { reading with method, error := true }
  | [method, resource] => { reading with method, resource, error := true }
  | method :: resource :: _ :: _ =>
      { reading with method, resource, protocol := resource, started := true, current := [] }

/-- Read a header line.  A line which does not continue the current header completes it; after a
header without a colon nothing is completed any more. -/
def addHeaderLine (reading : Reading) : List UInt8 → Reading
  | [] =>
      if Complete reading.current then
        { reading with
          done := true
          headers := reading.headers ++ pendingHeaders [reading.current] }
      else { reading with done := true, error := true }
  | first :: rest =>
      if isspace first then { reading with current := (reading.current ++ rest).take 4095 }
      else if Complete reading.current then
        { reading with
          current := (first :: rest).take 4095
          headers := reading.headers ++ pendingHeaders [reading.current] }
      else { reading with error := true }

/-- The headers which a line completes. -/
def completes (reading : Reading) (line : List UInt8) : List Header :=
  if (line.isEmpty || !isspace (line.headD 0)) = true ∧ Complete reading.current then
    pendingHeaders [reading.current]
  else []

/-- Read a line. -/
def addLine (reading : Reading) (line : List UInt8) : Reading :=
  if reading.started then reading.addHeaderLine line else reading.addRequestLine line

end Reading

/-- Read lines from the beginning. -/
def readLines (lines : List (List UInt8)) : Reading :=
  lines.foldl Reading.addLine Reading.fresh

theorem readLines_concat (lines : List (List UInt8)) (line : List UInt8) :
    readLines (lines ++ [line]) = (readLines lines).addLine line := by
  simp [readLines]

/-! ## The line buffer -/

/-- The line buffer holds the collected text, with a NUL behind it if it is shorter than 4095
bytes; the last byte of the buffer is the given one. -/
structure Collects (last : UInt8) (line current : List UInt8) : Prop where
  length_eq : line.length = lineBufferSize
  last_eq : line.drop 4095 = [last]
  string_eq : cstr (line.take 4095) = current

section

variable {last : UInt8} {line current : List UInt8}

theorem Collects.plain (collects : Collects last line current) : 0 ∉ current := by
  rw [← collects.string_eq]
  exact zero_notMem_cstr _

theorem Collects.length_le (collects : Collects last line current) : current.length ≤ 4095 := by
  rw [← collects.string_eq]
  calc (cstr (line.take 4095)).length
    _ ≤ (line.take 4095).length := (List.takeWhile_sublist _).length_le
    _ ≤ 4095 := List.length_take_le _ _

/-- The buffer is the collected text, something behind a NUL, and the last byte. -/
theorem Collects.split_line (collects : Collects last line current) :
    (current.length = 4095 ∧ line = current ++ [last]) ∨
      (current.length < 4095 ∧ ∃ later, line = current ++ 0 :: later) := by
  have split_line : line = line.take 4095 ++ [last] := by
    rw [← collects.last_eq, List.take_append_drop]
  have taken : (line.take 4095).length = 4095 := by
    rw [List.length_take, collects.length_eq]
    rfl
  obtain full | short := Nat.lt_or_eq_of_le collects.length_le |>.symm
  · left
    have whole : cstr (line.take 4095) = line.take 4095 :=
      (List.takeWhile_prefix _).eq_of_length ((congrArg List.length collects.string_eq).trans
        (full.trans taken.symm))
    refine ⟨full, ?_⟩
    rw [← collects.string_eq, whole, ← split_line]
  · right
    obtain ⟨later, terminated⟩ := exists_terminated (line.take 4095) (by
      rw [collects.string_eq, taken]
      exact short)
    rw [collects.string_eq] at terminated
    refine ⟨short, later ++ [last], ?_⟩
    rw [split_line, terminated, List.append_assoc, List.cons_append]

/-- There is a NUL in the buffer unless the collected text leaves no room for one. -/
theorem Collects.zero_mem_iff (collects : Collects last line current) :
    0 ∈ line ↔ last = 0 ∨ current.length < 4095 := by
  obtain ⟨full, rfl⟩ | ⟨short, later, rfl⟩ := collects.split_line
  · simp [collects.plain, full, eq_comm]
  · simp [short]

theorem Collects.cstr_eq (collects : Collects last line current) (terminated : 0 ∈ line) :
    cstr line = current := by
  obtain room | short := collects.zero_mem_iff.mp terminated
  · obtain ⟨-, rfl⟩ | ⟨-, later, rfl⟩ := collects.split_line
    · rw [room]
      exact cstr_of_terminated collects.plain []
    · exact cstr_of_terminated collects.plain later
  · obtain ⟨full, -⟩ | ⟨-, later, rfl⟩ := collects.split_line
    · omega
    · exact cstr_of_terminated collects.plain later

/-- Emptying the buffer. -/
theorem Collects.empty (length_eq : line.length = lineBufferSize)
    (last_eq : line.drop 4095 = [last]) : Collects last (overwrite line 0 [0]) [] := by
  refine ⟨?_, ?_, ?_⟩
  · rw [length_overwrite, length_eq]
    rw [length_eq]
    decide
  · rw [overwrite_zero, List.drop_append, List.drop_drop]
    simpa using last_eq
  · rw [overwrite_zero]
    simp [cstr]

/-- Storing a string behind the collected text. -/
theorem Collects.append (collects : Collects last line current) {string : List UInt8}
    (plain : 0 ∉ string) :
    Collects last (strncpy line current.length string (4095 - current.length))
      ((current ++ string).take 4095) := by
  have room := collects.length_le
  have length_eq : line.length = 4096 := collects.length_eq
  have kept : line.take current.length = current := by
    obtain ⟨-, split_line⟩ | ⟨-, later, split_line⟩ := collects.split_line
    · rw [split_line, List.take_left]
    · rw [split_line, List.take_left]
  have written : (string.take (4095 - current.length) ++
      List.replicate (4095 - current.length - string.length) 0).length =
        4095 - current.length := by
    simp only [List.length_append, List.length_take, List.length_replicate]
    omega
  have copied : strncpy line current.length string (4095 - current.length) =
      (current ++ string).take 4095 ++
        (List.replicate (4095 - current.length - string.length) 0 ++ [last]) := by
    rw [strncpy, overwrite, kept, written, Nat.add_sub_cancel' room, collects.last_eq,
      List.take_append, List.take_of_length_le room]
    simp only [List.append_assoc]
  have front : ((current ++ string).take 4095).length +
      (4095 - current.length - string.length) = 4095 := by
    simp only [List.length_take, List.length_append]
    omega
  have clean : 0 ∉ (current ++ string).take 4095 := by
    refine zero_notMem_take ?_ _
    simp [collects.plain, plain]
  refine ⟨?_, ?_, ?_⟩
  · rw [copied]
    simp only [List.length_append, List.length_replicate, List.length_singleton, lineBufferSize]
      at front ⊢
    omega
  · rw [copied, ← List.append_assoc, List.drop_left']
    rw [List.length_append, List.length_replicate, front]
  · rw [copied, ← List.append_assoc, List.take_left']
    · generalize 4095 - current.length - string.length = padding
      cases padding with
      | zero => simpa using cstr_eq_self clean
      | succ padding => exact cstr_of_terminated clean _
    · rw [List.length_append, List.length_replicate, front]

end

/-! ## Following the lines -/

/-- The parser has read what the description says. -/
structure Tracks (last : UInt8) (reading : Reading) (request : Request) : Prop where
  state_eq : request.state = if reading.started then .header else .start
  done_eq : request.done = reading.done
  error_eq : request.error = reading.error
  inside : request.overrun = false
  length_eq : request.line.length = lineBufferSize
  last_eq : request.line.drop 4095 = [last]
  string_eq : reading.started = true → cstr (request.line.take 4095) = reading.current
  unread : reading.started = false → reading.current = []

/-- The collected text leaves a byte of the line buffer for a NUL. -/
def Reading.HasRoom (last : UInt8) (reading : Reading) : Prop :=
  last = 0 ∨ reading.current.length < 4095

instance (last : UInt8) (reading : Reading) : Decidable (reading.HasRoom last) :=
  inferInstanceAs (Decidable (_ ∨ _))

section

variable {platform : Platform} {last : UInt8} {reading : Reading} {request : Request}

theorem Tracks.collects (tracks : Tracks last reading request) (started : reading.started = true) :
    Collects last request.line reading.current :=
  ⟨tracks.length_eq, tracks.last_eq, tracks.string_eq started⟩

theorem Tracks.scanLine_eq (tracks : Tracks last reading request)
    (started : reading.started = true) (room : reading.HasRoom last) :
    scanLine request = request := by
  have terminated := (tracks.collects started).zero_mem_iff.mpr room
  simp [scanLine, terminated]

theorem Tracks.cstr_eq (tracks : Tracks last reading request) (started : reading.started = true)
    (room : reading.HasRoom last) : cstr request.line = reading.current :=
  (tracks.collects started).cstr_eq ((tracks.collects started).zero_mem_iff.mpr room)

theorem headers_addHeaderLine (reading : Reading) (line : List UInt8) :
    (reading.addHeaderLine line).headers = reading.headers ++ reading.completes line := by
  cases line with
  | nil => by_cases complete : Complete reading.current <;>
      simp [Reading.addHeaderLine, Reading.completes, complete]
  | cons first rest =>
      cases space : isspace first <;> by_cases complete : Complete reading.current <;>
        simp [Reading.addHeaderLine, Reading.completes, complete, space]

theorem started_addHeaderLine (started : reading.started = true) (line : List UInt8) :
    (reading.addHeaderLine line).started = true := by
  cases line with
  | nil =>
      simp only [Reading.addHeaderLine]
      split <;> exact started
  | cons first rest =>
      simp only [Reading.addHeaderLine]
      split_ifs <;> exact started

theorem started_foldl (started : reading.started = true) (lines : List (List UInt8)) :
    (lines.foldl Reading.addLine reading).started = true := by
  induction lines generalizing reading with
  | nil => exact started
  | cons line lines ih =>
      refine ih ?_
      rw [Reading.addLine, started, if_pos rfl]
      exact started_addHeaderLine started line

/-- Processing headers keeps the line buffer, the end of the request and an error. -/
theorem recordHeaders_with_flags (platform : Platform) (headers : List Header) (request : Request)
    (memory : List UInt8) (done : Bool) :
    recordHeaders platform headers { request with line := memory, done } =
      { recordHeaders platform headers request with
        line := memory, done, error := request.error } := by
  rw [recordHeaders_with_line, ← (recordHeaders_state platform headers request).2]

theorem appendLine_of_space {first : UInt8} {rest current : List UInt8}
    (space : isspace first = true) (terminated : 0 ∈ request.line)
    (string_eq : cstr request.line = current) :
    appendLine request (first :: rest) =
      { request with
        line := strncpy request.line current.length rest (4095 - current.length) } := by
  have left : ((4096 : Int) - current.length - 1).toNat = 4095 - current.length := by omega
  simp [appendLine, scanLine, space, terminated, string_eq, lineBufferSize, left]

theorem appendLine_of_ink {first : UInt8} {rest : List UInt8} (ink : isspace first = false) :
    appendLine request (first :: rest) =
      { request with
        line := strncpy (overwrite request.line 0 [0]) 0 (first :: rest) 4095 } := by
  have emptied : cstr (overwrite request.line 0 [0]) = [] := by
    simp [overwrite_zero, cstr]
  have terminated : 0 ∈ overwrite request.line 0 [0] := by
    simp [overwrite_zero]
  simp [appendLine, scanLine, ink, terminated, emptied, lineBufferSize]

/-- A header line, read while there is room for the NUL: the headers it completes are processed
and the text is collected. -/
theorem Tracks.addHeaderLine_eq (platform : Platform) (tracks : Tracks last reading request)
    (started : reading.started = true) (room : reading.HasRoom last) {line : List UInt8}
    (plain : 0 ∉ line) :
    ∃ memory, addHeaderLine platform request line =
        { recordHeaders platform (reading.completes line) request with
          line := memory
          done := (reading.addHeaderLine line).done
          error := (reading.addHeaderLine line).error } ∧
      Collects last memory (reading.addHeaderLine line).current := by
  have collects := tracks.collects started
  have terminated := collects.zero_mem_iff.mpr room
  have string_eq := tracks.cstr_eq started room
  cases line with
  | nil =>
      have flushed : flushLine platform { request with done := true } = _ :=
        flushLine_of_cstr platform string_eq
      refine ⟨request.line, ?_, ?_⟩
      · by_cases complete : Complete reading.current
        · have recorded := recordHeaders_with_flags platform
            (pendingHeaders [reading.current]) request request.line true
          simpa [addHeaderLine, scanLine, terminated, flushed, complete, appendLine,
            Reading.addHeaderLine, Reading.completes, ← tracks.error_eq] using recorded
        · simp [addHeaderLine, scanLine, terminated, flushed, complete, Reading.addHeaderLine,
            Reading.completes, recordHeaders]
      · simp only [Reading.addHeaderLine]
        split <;> exact collects
  | cons first rest =>
      have flushed := flushLine_of_cstr platform string_eq
      cases space : isspace first with
      | true =>
          have rest_plain : 0 ∉ rest := fun member => plain (by simp [member])
          have stored := collects.append rest_plain
          refine ⟨_, ?_, by simpa [Reading.addHeaderLine, space] using stored⟩
          simp [addHeaderLine, space, appendLine_of_space space terminated string_eq,
            Reading.addHeaderLine, Reading.completes, recordHeaders, ← tracks.done_eq,
            ← tracks.error_eq]
      | false =>
          by_cases complete : Complete reading.current
          · have kept := recordHeaders_with_flags platform
              (pendingHeaders [reading.current]) request request.line request.done
            have line_eq := congrArg Request.line kept
            have done_eq := congrArg Request.done kept
            have error_eq := congrArg Request.error kept
            simp only at line_eq done_eq error_eq
            have emptied := Collects.empty collects.length_eq collects.last_eq
            have stored := emptied.append plain
            refine ⟨_, ?_, by simpa [Reading.addHeaderLine, space, complete] using stored⟩
            simp [addHeaderLine, scanLine, terminated, space, flushed, complete,
              appendLine_of_ink space, Reading.addHeaderLine, Reading.completes,
              line_eq, done_eq, error_eq, ← tracks.done_eq, ← tracks.error_eq]
          · refine ⟨request.line, ?_, by simpa [Reading.addHeaderLine, space, complete]
              using collects⟩
            simp [addHeaderLine, scanLine, terminated, space, flushed, complete,
              Reading.addHeaderLine, Reading.completes, recordHeaders, ← tracks.done_eq]

theorem recordHeaders_overrun (headers : List Header) (request : Request) :
    (recordHeaders platform headers request).overrun = request.overrun := by
  induction headers generalizing request with
  | nil => rfl
  | cons header headers ih =>
      have step : (recordHeader platform request header).overrun = request.overrun := by
        unfold recordHeader rqProcess
        split_ifs <;> rfl
      exact (ih (recordHeader platform request header)).trans step

/-- Every header line makes the parser look for the NUL in the line buffer, once. -/
theorem rqAddLine_overrun (request : Request) (line : List UInt8) :
    (rqAddLine platform request line).overrun =
      (request.overrun || decide (request.state = .header ∧ 0 ∉ request.line)) := by
  have flushed : ∀ other next : Request, flushLine platform other = some next →
      next.overrun = other.overrun := by
    intro other next outcome
    rw [flushLine_of_cstr platform rfl] at outcome
    split at outcome
    · rw [← Option.some.inj outcome, recordHeaders_overrun]
    · cases outcome
  unfold rqAddLine
  split
  · rename_i start
    have parsed : (parseRequestLine platform request line).1.overrun = request.overrun := by
      unfold parseRequestLine
      split <;> rfl
    rw [start, addRequestLine]
    split <;> simp_all
  · rename_i header
    rw [header]
    cases line with
    | nil =>
        simp only [addHeaderLine, List.isEmpty_nil, if_true, Bool.true_or]
        split
        · rename_i next outcome
          rw [appendLine, flushed _ _ outcome]
          simp [scanLine]
        · simp [scanLine]
    | cons first rest =>
        cases space : isspace first with
        | true =>
            simp [addHeaderLine, appendLine, space, scanLine]
        | false =>
            simp only [addHeaderLine, List.isEmpty_cons, List.headD_cons, space, Bool.not_false,
              Bool.or_true, if_true, Bool.false_eq_true, if_false]
            split
            · rename_i next outcome
              rw [appendLine_of_ink space, flushed _ _ outcome]
              simp [scanLine]
            · simp [scanLine]
  · rename_i failed
    simp [failed]

/-- The parser follows the description while there is room for the NUL. -/
theorem Tracks.addLine (platform : Platform) (tracks : Tracks last reading request)
    (room : reading.HasRoom last) {line : List UInt8} (plain : 0 ∉ line) :
    Tracks last (reading.addLine line) (rqAddLine platform request line) := by
  cases started : reading.started with
  | true =>
      have state_eq : request.state = .header := by
        rw [tracks.state_eq, started, if_pos rfl]
      obtain ⟨memory, outcome, collects⟩ :=
        tracks.addHeaderLine_eq platform started room plain
      have still := started_addHeaderLine started line
      rw [rqAddLine, state_eq, outcome, Reading.addLine, started, if_pos rfl]
      refine ⟨?_, rfl, rfl, ?_, collects.length_eq, collects.last_eq,
        fun _ => collects.string_eq, fun unread => ?_⟩
      · rw [still, if_pos rfl]
        exact (recordHeaders_state platform _ request).1.trans state_eq
      · exact (recordHeaders_overrun _ request).trans tracks.inside
      · rw [still] at unread
        cases unread
  | false =>
      have state_eq : request.state = .start := by
        rw [tracks.state_eq, started, if_neg (by decide)]
      have emptied := Collects.empty tracks.length_eq tracks.last_eq
      rw [rqAddLine, state_eq, Reading.addLine, started, if_neg (by decide)]
      rcases found : tokens isBlank line with _ | ⟨method, _ | ⟨resource, _ | ⟨protocol, others⟩⟩⟩
      · simp only [addRequestLine, parseRequestLine, Reading.addRequestLine, found]
        exact { tracks with error_eq := rfl }
      · simp only [addRequestLine, parseRequestLine, Reading.addRequestLine, found]
        exact { tracks with error_eq := rfl }
      · simp only [addRequestLine, parseRequestLine, Reading.addRequestLine, found]
        exact { tracks with error_eq := rfl }
      · simp only [addRequestLine, parseRequestLine, Reading.addRequestLine, found]
        exact
          { tracks with
            state_eq := rfl
            length_eq := emptied.length_eq
            last_eq := emptied.last_eq
            string_eq := fun _ => emptied.string_eq
            unread := fun _ => rfl }

end

/-- The collected text leaves room for the NUL before each of the lines. -/
def Reading.Contained (last : UInt8) (reading : Reading) (lines : List (List UInt8)) : Prop :=
  ∀ count < lines.length, ((lines.take count).foldl Reading.addLine reading).HasRoom last

instance (last : UInt8) (reading : Reading) (lines : List (List UInt8)) :
    Decidable (reading.Contained last lines) :=
  inferInstanceAs (Decidable (∀ count < lines.length, _))

theorem contained_fresh_iff {last : UInt8} {lines : List (List UInt8)} :
    Reading.fresh.Contained last lines ↔ last = 0 ∨
      ∀ count < lines.length, (readLines (lines.take count)).current.length < 4095 := by
  simp only [Reading.Contained, Reading.HasRoom, forall_or_left, readLines]

theorem contained_cons {last : UInt8} {reading : Reading} {line : List UInt8}
    {lines : List (List UInt8)} :
    reading.Contained last (line :: lines) ↔
      reading.HasRoom last ∧ (reading.addLine line).Contained last lines := by
  simp only [Reading.Contained, List.length_cons, Nat.forall_lt_succ_left, List.take_zero,
    List.foldl_nil, List.take_succ_cons, List.foldl_cons]

section

variable {last : UInt8} {reading : Reading} {request : Request} {lines : List (List UInt8)}

theorem Tracks.foldl (platform : Platform) (tracks : Tracks last reading request)
    (contained : reading.Contained last lines) (plain : ∀ line ∈ lines, 0 ∉ line) :
    Tracks last (lines.foldl Reading.addLine reading)
      (lines.foldl (rqAddLine platform) request) := by
  induction lines generalizing reading request with
  | nil => exact tracks
  | cons line lines ih =>
      obtain ⟨room, later⟩ := contained_cons.mp contained
      exact ih (tracks.addLine platform room (plain line (by simp))) later
        fun other member => plain other (by simp [member])

theorem foldl_rqAddLine_overrun (platform : Platform) (overrun : request.overrun = true)
    (lines : List (List UInt8)) : (lines.foldl (rqAddLine platform) request).overrun = true := by
  induction lines generalizing request with
  | nil => exact overrun
  | cons line lines ih => exact ih (by rw [rqAddLine_overrun, overrun, Bool.true_or])

/-- The parser stays inside its line buffer exactly when there is always room for the NUL. -/
theorem Tracks.overrun_iff (platform : Platform) (tracks : Tracks last reading request)
    (plain : ∀ line ∈ lines, 0 ∉ line) :
    (lines.foldl (rqAddLine platform) request).overrun = false ↔
      reading.Contained last lines := by
  refine ⟨fun inside => ?_, fun contained => (tracks.foldl platform contained plain).inside⟩
  induction lines generalizing reading request with
  | nil => exact fun count below => absurd below (Nat.not_lt_zero count)
  | cons line lines ih =>
      have room : reading.HasRoom last := by
        by_contra full
        have started : reading.started = true := by
          by_contra unread
          have empty := tracks.unread (by simpa using unread)
          exact full (Or.inr (by rw [empty]; decide))
        have missing : 0 ∉ request.line :=
          fun member => full ((tracks.collects started).zero_mem_iff.mp member)
        have state_eq : request.state = .header := by
          rw [tracks.state_eq, started, if_pos rfl]
        have overrun : (rqAddLine platform request line).overrun = true := by
          rw [rqAddLine_overrun]
          simp [state_eq, missing]
        rw [List.foldl_cons, foldl_rqAddLine_overrun platform overrun] at inside
        cases inside
      exact contained_cons.mpr ⟨room, ih (tracks.addLine platform room (plain line (by simp)))
        (fun other member => plain other (by simp [member])) inside⟩

end

theorem tracks_rqCreate (memory : Nat → UInt8) :
    Tracks (memory 4095) Reading.fresh (rqCreate memory) := by
  refine ⟨rfl, rfl, rfl, rfl, ?_, ?_, nofun, fun _ => rfl⟩
  · simp [rqCreate, allocated]
  · rw [rqCreate, allocated, show lineBufferSize = 4095 + 1 from rfl, List.range_succ,
      List.map_append, List.drop_left' (by simp)]
    simp

end Jabsocket
