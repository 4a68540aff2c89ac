import Jabsocket.Handshake
import Jabsocket.Intake
import Jabsocket.ServerLoss

/-!
# The request as bytes

The read callback takes lines out of the bytes of the browser until the request is complete.  How
the bytes were cut into reads does not matter for the handshake, and a request whose lines end in
CR and LF reaches the request parser line by line.
-/

namespace Jabsocket

/-! ## Lines -/

/-- More bytes behind a complete line do not change it. -/
theorem Evbuffer.readln_append (evbuffer : Evbuffer) {input line rest : List UInt8}
    (found : evbuffer.readln input = some (line, rest)) (more : List UInt8) :
    evbuffer.readln (input ++ more) = some (line, rest ++ more) := by
  obtain ⟨bytes, whole, rfl, rfl⟩ := evbuffer.readln_eq_some_iff.mp found
  exact evbuffer.readln_eq_some_iff.mpr ⟨bytes, whole, by simp, rfl⟩

/-- A line which ends in CR and LF. -/
theorem Evbuffer.readln_crlf (evbuffer : Evbuffer) {line : List UInt8} (whole : 10 ∉ line)
    (rest : List UInt8) : evbuffer.readln (line ++ crlf ++ rest) = some (line, rest) := by
  refine evbuffer.readln_eq_some_iff.mpr ⟨line ++ [13], ?_, by simp [crlf], by simp [stripReturn]⟩
  simpa using whole

/-! ## Reading a request in parts -/

/-- The loop of `wsconn_read_cb` in `WS_ST_START`. -/
def readRequest (env : Environment) (conn : Conn) : Conn :=
  Loop.run (handshakeRound env) (fun conn => conn.input.length) conn

/-- A connection with more unread bytes. -/
def Conn.unread (conn : Conn) (more : List UInt8) : Conn :=
  { conn with input := conn.input ++ more }

/-- The connection when a line was taken from its input. -/
def Conn.lineTaken (env : Environment) (conn : Conn) (line rest : List UInt8) : Conn :=
  { conn with input := rest, req := rqAddLine env.platform conn.req (cstr line) }

/-- The decision on a request. -/
def Conn.analysis (env : Environment) (conn : Conn) : Str × Int :=
  rqAnalyze env.platform conn.req env.conf (strLocal 1024)

/-- The connection when the response to a request is queued. -/
def Conn.responded (env : Environment) (conn : Conn) : Conn :=
  { conn.log (.analyzed ((conn.analysis env).2 ≠ 0)) with
    pending := conn.pending ++ (conn.analysis env).1.buffer.take (conn.analysis env).1.length
    queued := conn.queued ++
      [.response ((conn.analysis env).1.buffer.take (conn.analysis env).1.length)] }

/-- The connection when a request was accepted. -/
def Conn.opened (conn : Conn) : Conn :=
  { (conn.log .connected).setWsState .receiving with flCmClosed := false }.log .connected

section

variable {env : Environment} {conn : Conn}

theorem Conn.unread_nil (conn : Conn) : conn.unread [] = conn := by
  simp [Conn.unread]

theorem Conn.unread_append (conn : Conn) (first second : List UInt8) :
    conn.unread (first ++ second) = (conn.unread first).unread second := by
  simp [Conn.unread]

theorem wsconnHandshake_eq (env : Environment) (conn : Conn) :
    wsconnHandshake env conn =
      if (conn.analysis env).2 ≠ 0 then (conn.responded env).opened
      else wsconnClose (conn.responded env) := rfl

theorem wsconnClose_unread (conn : Conn) (more : List UInt8) :
    wsconnClose (conn.unread more) = (wsconnClose conn).unread more := by
  unfold wsconnClose
  dsimp only
  split_ifs with created created' closed closed' <;> first | rfl | contradiction

theorem wsconnClose_input (conn : Conn) : (wsconnClose conn).input = conn.input :=
  congrArg Prod.fst (wsconnClose_intake conn)

theorem wsconnClose_pending (conn : Conn) : (wsconnClose conn).pending = conn.pending := by
  unfold wsconnClose
  dsimp only
  split_ifs <;> rfl

theorem wsconnHandshake_unread (env : Environment) (conn : Conn) (more : List UInt8) :
    wsconnHandshake env (conn.unread more) = (wsconnHandshake env conn).unread more := by
  have same : (conn.unread more).analysis env = conn.analysis env := rfl
  have responded : (conn.unread more).responded env = (conn.responded env).unread more := rfl
  rw [wsconnHandshake_eq, wsconnHandshake_eq, same, responded]
  split_ifs
  · rfl
  · exact wsconnClose_unread _ more

theorem wsconnHandshake_wsState_ne (env : Environment) (conn : Conn) :
    (wsconnHandshake env conn).wsState ≠ .start := by
  rw [wsconnHandshake_eq]
  split_ifs
  · simp [Conn.opened, Conn.setWsState, Conn.log]
  · simp [wsconnClose_wsState]

theorem readRequest_none (env : Environment) (conn : Conn)
    (none : env.evbuffer.readln conn.input = none) :
    readRequest env conn = conn :=
  Loop.run_of_leave _ (by rw [handshakeRound, none])

/-- One line of the request. -/
theorem readRequest_some (env : Environment) (conn : Conn) {line rest : List UInt8}
    (found : env.evbuffer.readln conn.input = some (line, rest)) :
    readRequest env conn =
      if (conn.lineTaken env line rest).req.error then wsconnClose (conn.lineTaken env line rest)
      else if (conn.lineTaken env line rest).req.done then
        wsconnHandshake env (conn.lineTaken env line rest)
      else readRequest env (conn.lineTaken env line rest) := by
  have outcome : handshakeRound env conn =
      if (conn.lineTaken env line rest).req.error then
        .leave (wsconnClose (conn.lineTaken env line rest))
      else if (conn.lineTaken env line rest).req.done then
        .leave (wsconnHandshake env (conn.lineTaken env line rest))
      else .again (conn.lineTaken env line rest) := by
    rw [handshakeRound, found]
    rfl
  split_ifs at outcome ⊢
  · exact Loop.run_of_leave _ outcome
  · exact Loop.run_of_leave _ outcome
  · exact Loop.run_of_again (handshakeRound_decreasing env) outcome

/-- Bytes which arrive later are read as if they had been there from the beginning, until the
request is decided. -/
theorem readRequest_unread (env : Environment) (start : conn.wsState = .start)
    (more : List UInt8) :
    readRequest env (conn.unread more) =
      if (readRequest env conn).wsState = .start then
        readRequest env ((readRequest env conn).unread more)
      else (readRequest env conn).unread more := by
  induction bound : conn.input.length using Nat.strongRecOn generalizing conn with
  | _ bound ih =>
      cases found : env.evbuffer.readln conn.input with
      | none => rw [readRequest_none env conn found, if_pos start]
      | some split_input =>
          obtain ⟨line, rest⟩ := split_input
          have shorter := env.evbuffer.readln_length found
          have later : env.evbuffer.readln (conn.unread more).input = some (line, rest ++ more) :=
            env.evbuffer.readln_append found more
          have taken : (conn.unread more).lineTaken env line (rest ++ more) =
              (conn.lineTaken env line rest).unread more := rfl
          have same : ((conn.lineTaken env line rest).unread more).req =
              (conn.lineTaken env line rest).req := rfl
          rw [readRequest_some env conn found, readRequest_some env (conn.unread more) later, taken,
            same]
          split_ifs with error done
          · exact absurd ‹_› (by simp [wsconnClose_wsState])
          · exact wsconnClose_unread _ more
          · exact absurd ‹_› (wsconnHandshake_wsState_ne env _)
          · exact wsconnHandshake_unread env _ more
          · rw [@ih rest.length (by omega) (conn.lineTaken env line rest) start rfl]
            split_ifs
            rfl
          · rw [@ih rest.length (by omega) (conn.lineTaken env line rest) start rfl]
            split_ifs
            rfl

theorem readRequest_waits (env : Environment) (conn : Conn)
    (start : (readRequest env conn).wsState = .start) :
    env.evbuffer.readln (readRequest env conn).input = none := by
  induction bound : conn.input.length using Nat.strongRecOn generalizing conn with
  | _ bound ih =>
      cases found : env.evbuffer.readln conn.input with
      | none => rwa [readRequest_none env conn found]
      | some split_input =>
          obtain ⟨line, rest⟩ := split_input
          have shorter := env.evbuffer.readln_length found
          rw [readRequest_some env conn found] at start ⊢
          split_ifs at start ⊢ with error done
          · simp [wsconnClose_wsState] at start
          · exact absurd start (wsconnHandshake_wsState_ne env _)
          · exact ih rest.length (by omega) _ start rfl

/-- What the browser's first bytes find: a connection which is not deleted and whose manager was
created. -/
def Conn.Untouched (conn : Conn) : Prop :=
  conn.wsState = .start ∧ conn.cmState = .created ∧ conn.deleted = false

/-- What holds of a connection when lines of its request were read. -/
structure Conn.Asked (conn : Conn) : Prop where
  alive : conn.deleted = false
  wsState_ne : conn.wsState ≠ .closing
  waiting : conn.wsState = .start → conn.Untouched

theorem Conn.Untouched.wsconnClose (untouched : conn.Untouched) :
    (wsconnClose conn).Asked := by
  refine ⟨?_, by simp [wsconnClose_wsState], fun start => by simp [wsconnClose_wsState] at start⟩
  rw [Jabsocket.wsconnClose, if_pos (by exact untouched.2.1)]
  exact untouched.2.2

/-- Reading a request does not delete the connection, and the manager exists until the request is
decided. -/
theorem Conn.Untouched.readRequest (env : Environment) (untouched : conn.Untouched) :
    (readRequest env conn).Asked := by
  refine handshake_induction Conn.Untouched Conn.Asked (fun _ _ _ untouched => untouched) ?_ ?_ ?_
    untouched
  · exact fun state untouched => ⟨untouched.2.2, by simp [untouched.1], fun _ => untouched⟩
  · exact fun state untouched => untouched.wsconnClose
  · intro state untouched
    rw [wsconnHandshake_eq]
    split_ifs
    · exact ⟨untouched.2.2, (fun closing => by cases closing), (fun start => by cases start)⟩
    · exact Conn.Untouched.wsconnClose (by exact untouched)

/-! ## The handler calls of a request -/

/-- Calls of the read callback, each with the bytes which arrived before it. -/
def readLabels (reads : List (List UInt8 × Bool)) : List Label :=
  reads.map fun read => .read read.1 read.2

/-- All bytes which arrive. -/
def arrived (reads : List (List UInt8 × Bool)) : List UInt8 :=
  reads.flatMap Prod.fst

theorem connStep_read (alive : conn.deleted = false) (bytes : List UInt8) (sync : Bool) :
    connStep env conn (.read bytes sync) = some (wsconnReadCb env (conn.unread bytes) sync) := by
  rw [connStep, connStepSized, if_neg (by simp [alive])]
  rfl

theorem wsconnReadCb_start (start : conn.wsState = .start) (sync : Bool) :
    wsconnReadCb env conn sync = readRequest env conn := by
  rw [wsconnReadCb_def, start]
  rfl

/-- A connection which was closed reads nothing. -/
theorem run_reads_closed (closed : conn.wsState = .closed) (alive : conn.deleted = false)
    (reads : List (List UInt8 × Bool)) :
    Execution.run (connStep env) conn (readLabels reads) = some (conn.unread (arrived reads)) := by
  induction reads generalizing conn with
  | nil => exact congrArg some conn.unread_nil.symm
  | cons read reads ih =>
      have stays : wsconnReadCb env (conn.unread read.1) read.2 = conn.unread read.1 :=
        wsconnReadCb_ended env (conn.unread read.1) (Or.inr closed) read.2
      have later := @ih (conn.unread read.1) closed alive
      rw [← conn.unread_append] at later
      exact Execution.run_cons.mpr ⟨_, connStep_read alive read.1 read.2, stays.symm ▸ later⟩

/-- Reading bytes as they arrive is reading all of them at once, when nothing is behind an accepted
request. -/
theorem Conn.Untouched.run_reads (untouched : conn.Untouched)
    {reads : List (List UInt8 × Bool)} (waits : reads = [] → env.evbuffer.readln conn.input = none)
    (nonempty : ∀ read ∈ reads, read.1 ≠ [])
    (ends : (Jabsocket.readRequest env (conn.unread (arrived reads))).wsState = .receiving →
      (Jabsocket.readRequest env (conn.unread (arrived reads))).input = []) :
    Execution.run (connStep env) conn (readLabels reads) =
      some (Jabsocket.readRequest env (conn.unread (arrived reads))) := by
  induction reads generalizing conn with
  | nil =>
      rw [show arrived [] = [] from rfl, conn.unread_nil, readRequest_none env conn (waits rfl)]
      rfl
  | cons read reads ih =>
      have parts : conn.unread (arrived (read :: reads)) =
          (conn.unread read.1).unread (arrived reads) := conn.unread_append read.1 _
      have first : (conn.unread read.1).Untouched := untouched
      have asked := first.readRequest env
      have stepped : connStep env conn (.read read.1 read.2) =
          some (Jabsocket.readRequest env (conn.unread read.1)) := by
        rw [connStep_read untouched.2.2, wsconnReadCb_start (by exact untouched.1)]
      have whole := readRequest_unread env first.1 (arrived reads)
      rw [parts, whole] at ends ⊢
      refine Execution.run_cons.mpr ⟨_, stepped, ?_⟩
      split_ifs at ends ⊢ with start
      · exact ih (asked.waiting start) (fun _ => readRequest_waits env _ start)
          (fun later member => nonempty later (List.mem_cons_of_mem _ member)) ends
      · cases state : (Jabsocket.readRequest env (conn.unread read.1)).wsState with
        | start => exact absurd state start
        | receiving =>
            have unread : arrived reads = [] := (List.append_eq_nil_iff.mp (ends state)).2
            obtain rfl : reads = [] := List.eq_nil_iff_forall_not_mem.mpr fun later member =>
              nonempty later (List.mem_cons_of_mem _ member) (List.flatMap_eq_nil_iff.mp unread
                later member)
            rw [unread, Conn.unread_nil]
            rfl
        | closing => exact absurd state asked.wsState_ne
        | closed => exact run_reads_closed state asked.alive reads

theorem untouched_of_reachable (reachable : Reachable env conn) (start : conn.wsState = .start) :
    conn.Untouched := by
  obtain ⟨gone, phase⟩ := phase_of_reachable reachable
  cases phase with
  | fresh fresh => exact ⟨start, fresh.cmState_eq, fresh.deleted_eq⟩
  | serving serving => simp [serving.wsState_eq] at start
  | draining draining => simp [draining.wsState_eq] at start
  | shut shut => simp [shut.wsState_eq] at start

/-- How the network cuts the bytes of a request does not matter: a connection which waits for its
request ends as if all bytes had arrived at once, as long as nothing is behind an accepted
request. -/
theorem handshake_cut_independent (reachable : Reachable env conn) (start : conn.wsState = .start)
    {reads : List (List UInt8 × Bool)} (some_read : reads ≠ [])
    (nonempty : ∀ read ∈ reads, read.1 ≠ []) (sync : Bool)
    (ends : (wsconnReadCb env { conn with input := conn.input ++ arrived reads } sync).wsState =
        .receiving →
      (wsconnReadCb env { conn with input := conn.input ++ arrived reads } sync).input = []) :
    Execution.run (connStep env) conn (readLabels reads) =
      some (wsconnReadCb env { conn with input := conn.input ++ arrived reads } sync) := by
  have whole : wsconnReadCb env { conn with input := conn.input ++ arrived reads } sync =
      readRequest env (conn.unread (arrived reads)) := wsconnReadCb_start (by exact start) sync
  rw [whole] at ends ⊢
  exact (untouched_of_reachable reachable start).run_reads (fun none => absurd none some_read)
    nonempty ends

end

/-- The request of the session in two parts, cut inside a line. -/
def sessionReads : List (List UInt8 × Bool) :=
  [(sessionRequest.take 20, false), (sessionRequest.drop 20, true)]

/-- The session is opened by its request in two parts as by its request in one. -/
theorem handshake_cut_independent_session :
    Execution.run (connStep sessionEnvironment) (wsconnCreate sessionEnvironment)
        (readLabels sessionReads) =
      some (wsconnReadCb sessionEnvironment
        { wsconnCreate sessionEnvironment with
          input := (wsconnCreate sessionEnvironment).input ++ arrived sessionReads } false) :=
  handshake_cut_independent ⟨[], rfl⟩ rfl (by decide) (by decide +kernel) false
    (by decide +kernel)

/-! ## A request line by line -/

/-- The bytes of lines. -/
def wireLines (lines : List (List UInt8)) : List UInt8 :=
  lines.flatMap (· ++ crlf)

theorem appendLine_done (request : Request) (line : List UInt8) :
    (appendLine request line).done = request.done := by
  cases line with
  | nil => rfl
  | cons first rest =>
      simp only [appendLine, scanLine]
      split <;> rfl

theorem flushLine_done (platform : Platform) {request next : Request}
    (flushed : flushLine platform request = some next) : next.done = request.done := by
  simp only [flushLine] at flushed
  split_ifs at flushed
  · rw [← Option.some.inj flushed]
    unfold rqProcess
    split_ifs <;> rfl
  · rw [← Option.some.inj flushed]

/-- Only the empty line ends a request. -/
theorem rqAddLine_done (platform : Platform) (request : Request) {line : List UInt8}
    (nonempty : line ≠ []) : (rqAddLine platform request line).done = request.done := by
  have kept : (if line.isEmpty then { request with done := true } else request) = request :=
    if_neg (by simpa using nonempty)
  unfold rqAddLine
  split
  · unfold addRequestLine parseRequestLine
    split <;> rename_i parsed <;> split at parsed <;>
      (obtain ⟨rfl, -⟩ := Prod.mk.inj parsed; rfl)
  · simp only [addHeaderLine, kept]
    split
    · split
      · rename_i next flushed
        rw [appendLine_done, flushLine_done platform flushed]
        rfl
      · rfl
    · exact appendLine_done request line
  · rfl

section

variable {env : Environment} {conn : Conn}

/-- The lines of a request reach the parser one by one. -/
theorem readRequest_lines {lines : List (List UInt8)} {rest : List UInt8}
    (plain : ∀ line ∈ lines, 0 ∉ line) (whole : ∀ line ∈ lines, 10 ∉ line)
    (nonempty : ∀ line ∈ lines, line ≠ []) (unfinished : conn.req.done = false)
    (input_eq : conn.input = wireLines (lines ++ [[]]) ++ rest)
    (clean : ((lines ++ [[]]).foldl (rqAddLine env.platform) conn.req).error = false)
    (finished : ((lines ++ [[]]).foldl (rqAddLine env.platform) conn.req).done = true) :
    readRequest env conn =
      wsconnHandshake env
        { conn with
          input := rest, req := (lines ++ [[]]).foldl (rqAddLine env.platform) conn.req } := by
  induction lines generalizing conn with
  | nil =>
      have found : env.evbuffer.readln conn.input = some ([], rest) := by
        rw [input_eq]
        exact env.evbuffer.readln_crlf List.not_mem_nil rest
      have closes : ¬ (conn.lineTaken env [] rest).req.error = true := by
        rw [show (conn.lineTaken env [] rest).req.error = false from clean]
        simp
      rw [readRequest_some env conn found, if_neg closes, if_pos (by exact finished)]
      rfl
  | cons line lines ih =>
      have found : env.evbuffer.readln conn.input =
          some (line, wireLines (lines ++ [[]]) ++ rest) := by
        rw [input_eq, ← env.evbuffer.readln_crlf (whole line (by simp))]
        simp [wireLines]
      have parsed : (conn.lineTaken env line (wireLines (lines ++ [[]]) ++ rest)).req =
          rqAddLine env.platform conn.req line := by
        rw [Conn.lineTaken, cstr_eq_self (plain line (by simp))]
      have pending : (rqAddLine env.platform conn.req line).done = false :=
        (rqAddLine_done env.platform conn.req (nonempty line (by simp))).trans unfinished
      have closes : ¬ (rqAddLine env.platform conn.req line).error = true := by
        intro error
        simp only [List.cons_append, List.foldl_cons] at clean
        rw [foldl_rqAddLine_error error] at clean
        cases clean
      rw [readRequest_some env conn found, parsed, if_neg closes, if_neg (by simp [pending]),
        @ih (conn.lineTaken env line (wireLines (lines ++ [[]]) ++ rest))
          (fun later member => plain later (List.mem_cons_of_mem _ member))
          (fun later member => whole later (List.mem_cons_of_mem _ member))
          (fun later member => nonempty later (List.mem_cons_of_mem _ member))
          (by rw [parsed, pending]) rfl (by rw [parsed]; exact clean)
          (by rw [parsed]; exact finished), parsed]
      rfl

end

end Jabsocket
