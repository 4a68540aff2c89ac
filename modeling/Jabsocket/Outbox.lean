import Jabsocket.Answers
import Jabsocket.ServerLoss

/-!
# What the browser is sent

The bytes which the browser was sent and those which still wait make up what was queued, at every
moment of a run.  A connection which ends with a closing handshake is deleted only when all of them
were sent.  The browser can take the bytes apart again as long as no payload is too long for the
length which the server writes in front of it.
-/

namespace Jabsocket

/-! ## Handlers only add to the queue -/

/-- A connection has queued some writes, or none. -/
def Conn.Grows (conn final : Conn) : Prop :=
  ∃ writes, conn.Queues writes final

section

variable {conn middle final : Conn}

theorem Conn.Grows.of_eq (same : final.outbox = conn.outbox) : conn.Grows final :=
  ⟨[], .of_eq same⟩

theorem Conn.Grows.trans (earlier : conn.Grows middle) (later : middle.Grows final) :
    conn.Grows final := by
  obtain ⟨first, queues⟩ := earlier
  obtain ⟨second, queues'⟩ := later
  exact ⟨first ++ second, queues.trans queues'⟩

theorem Conn.Grows.congr (grows : conn.Grows final) {other : Conn}
    (same : other.outbox = conn.outbox) : other.Grows final := by
  obtain ⟨writes, queues⟩ := grows
  exact ⟨writes, queues.congr same⟩

theorem Conn.Grows.to (grows : conn.Grows final) {other : Conn}
    (same : other.outbox = final.outbox) : conn.Grows other :=
  grows.trans (.of_eq same)

theorem Conn.Grows.withManager (grows : conn.Grows final) (cm : CManager) :
    conn.Grows { final with cm } :=
  grows.to rfl

end

section

variable (env : Environment) (conn : Conn)

theorem Conn.grows_writeFrame (opcode : Nat) (payload : List UInt8) :
    conn.Grows (conn.writeFrame opcode payload) :=
  ⟨_, conn.queues_writeFrame opcode payload⟩

theorem grows_wsconnClose : conn.Grows (wsconnClose conn) :=
  ⟨[], queues_wsconnClose conn⟩

theorem grows_wsconnInitiateClose (status : Nat) (reason : List UInt8) :
    conn.Grows (wsconnInitiateClose conn status reason) := by
  cases closing : conn.flWsClosing with
  | true =>
      rw [wsconnInitiateClose, if_pos closing]
      exact .of_eq rfl
  | false => exact ⟨_, queues_wsconnInitiateClose closing status reason⟩

theorem grows_wsconnOnclosed : conn.Grows (wsconnOnclosed conn) := by
  unfold wsconnOnclosed
  dsimp only
  split
  · exact (grows_wsconnInitiateClose _ _ _).congr rfl
  · exact .of_eq rfl
  · exact .of_eq rfl
  · exact .of_eq rfl

theorem grows_cmEventcb (events : Events) : conn.Grows (cmEventcb conn events) := by
  unfold cmEventcb
  dsimp only
  split_ifs
  · split <;> exact .of_eq rfl
  · exact ((grows_wsconnOnclosed (conn.log (.xmppEvent events))).congr rfl).to rfl
  · exact .of_eq rfl

theorem grows_cmConnect (sync : Bool) : conn.Grows (cmConnect conn sync) := by
  unfold cmConnect
  dsimp only
  split_ifs
  · exact (grows_cmEventcb _ _).congr rfl
  · exact .of_eq rfl

theorem grows_cmOnmessage (message : List UInt8) (sync : Bool) :
    conn.Grows (cmOnmessage env conn message sync) := by
  unfold cmOnmessage cmOnStart
  dsimp only
  split
  · split
    · exact .of_eq rfl
    · split_ifs
      · exact .of_eq rfl
      · split
        · exact .of_eq rfl
        · split
          · exact .of_eq rfl
          · exact ((grows_cmConnect _ sync).congr rfl).withManager _
  · exact .of_eq rfl
  · split <;> exact .of_eq rfl

theorem grows_answerClose (payload : List UInt8) : conn.Grows (answerClose conn payload) :=
  (grows_wsconnInitiateClose _ _ _).congr rfl

theorem grows_wsconnHandshake : conn.Grows (wsconnHandshake env conn) := by
  unfold wsconnHandshake
  dsimp only
  generalize (rqAnalyze env.platform conn.req env.conf (strLocal 1024)) = analysis
  have responded : conn.Grows
      { conn.log (.analyzed (analysis.2 ≠ 0)) with
        pending := conn.pending ++ analysis.1.buffer.take analysis.1.length
        queued := conn.queued ++ [.response (analysis.1.buffer.take analysis.1.length)] } :=
    ⟨[.response (analysis.1.buffer.take analysis.1.length)], by
      simp [Conn.Queues, Conn.outbox, Write.bytes]⟩
  split_ifs
  · exact responded.to rfl
  · exact responded.trans (grows_wsconnClose _)

/-- The frame loop. -/
theorem grows_wsconnProcessFrame (sync : Bool) :
    conn.Grows (wsconnProcessFrame env conn sync) := by
  refine Loop.run_induction conn.Grows conn.Grows (frameRound_decreasing env sync) ?_ ?_
    (.of_eq rfl)
  · intro state next grows again
    cases frameStep_of_eq again with
    | control => exact grows.to rfl
    | text payload =>
        exact grows.trans ((grows_cmOnmessage env _ payload sync).congr rfl)
    | other => exact grows.to rfl
  · intro state final grows leave
    cases frameStep_of_eq leave with
    | failed => exact grows.trans (grows_wsconnClose state)
    | close payload => exact grows.trans ((grows_answerClose _ payload).congr rfl)
    | ping payload =>
        exact grows.trans (⟨_, (queues_answerPing _ payload).congr rfl⟩ : state.Grows _)
    | idle => exact grows
    | binary => exact grows.trans ((grows_wsconnClose _).congr rfl)

theorem grows_wsconnReadCb (sync : Bool) : conn.Grows (wsconnReadCb env conn sync) := by
  rw [wsconnReadCb_def]
  split
  · refine handshake_induction conn.Grows conn.Grows ?_ ?_ ?_ ?_ (.of_eq rfl)
    · intro state line rest grows
      exact grows.to rfl
    · intro state grows
      exact grows
    · intro state grows
      exact grows.trans (grows_wsconnClose state)
    · intro state grows
      exact grows.trans (grows_wsconnHandshake env state)
  · exact grows_wsconnProcessFrame env conn sync
  · exact .of_eq rfl
  · exact .of_eq rfl

theorem grows_cmReadcb : conn.Grows (cmReadcb env conn) := by
  have forwarded := forwardFrames_keeps env.heap conn.Grows
    (fun state payload grows => grows.trans (state.grows_writeFrame opcodeText payload))
  unfold cmReadcb
  split
  · dsimp only
    split_ifs
    · exact .of_eq rfl
    · exact (forwarded _ (.of_eq rfl)).to rfl
  · exact .of_eq rfl

end

/-! ## Bytes sent and bytes which wait -/

/-- The bytes which the browser is sent when a handler is called. -/
def Conn.sends (conn : Conn) : Label → List UInt8
  | .write sent => conn.pending.take sent
  | _ => []

/-- The bytes which the browser is sent in a run. -/
def sentBytes (env : Environment) : Conn → List Label → List UInt8
  | _, [] => []
  | conn, label :: labels =>
      conn.sends label ++
        match connStep env conn label with
        | none => []
        | some next => sentBytes env next labels

/-- The bytes of everything which was queued. -/
def Conn.wire (conn : Conn) : List UInt8 :=
  conn.queued.flatMap Write.bytes

theorem sentBytes_cons {env : Environment} {conn next : Conn} {label : Label}
    (stepped : connStep env conn label = some next) (labels : List Label) :
    sentBytes env conn (label :: labels) = conn.sends label ++ sentBytes env next labels := by
  rw [sentBytes, stepped]

theorem Conn.Grows.sent_append_pending {conn final : Conn} (grows : conn.Grows final)
    {sent : List UInt8} (accounted : sent ++ conn.pending = conn.wire) :
    sent ++ final.pending = final.wire := by
  obtain ⟨writes, queues⟩ := grows
  have queued_eq : final.queued = conn.queued ++ writes := congrArg Prod.fst queues
  have pending_eq : final.pending = conn.pending ++ writes.flatMap Write.bytes :=
    congrArg Prod.snd queues
  rw [Conn.wire, queued_eq, pending_eq, List.flatMap_append, ← List.append_assoc, accounted,
    Conn.wire]

/-- A handler call sends from the front of what waits and adds behind it. -/
theorem connStep_sent_append_pending {env : Environment} {conn next : Conn} {label : Label}
    (stepped : connStep env conn label = some next) {sent : List UInt8}
    (accounted : sent ++ conn.pending = conn.wire) :
    sent ++ conn.sends label ++ next.pending = next.wire := by
  obtain ⟨-, handled⟩ := handles_of_connStep stepped
  cases handled with
  | read bytes sync =>
      simp only [Conn.sends, List.append_nil]
      exact ((grows_wsconnReadCb env _ sync).congr rfl).sent_append_pending accounted
  | write count =>
      have dropped : sent ++ conn.pending.take count ++ conn.pending.drop count = conn.wire := by
        rw [List.append_assoc, List.take_append_drop, accounted]
      rw [Conn.sends, wsconnWriteCb]
      split_ifs <;> exact dropped
  | event events =>
      simp only [Conn.sends, List.append_nil, wsconnEventCb]
      split_ifs
      · exact ((grows_wsconnClose _).congr rfl).sent_append_pending accounted
      · exact accounted
  | managerRead bytes bev_eq =>
      simp only [Conn.sends, List.append_nil]
      exact ((grows_cmReadcb env _).congr rfl).sent_append_pending accounted
  | managerEvent events present =>
      simp only [Conn.sends, List.append_nil]
      exact (grows_cmEventcb conn events).sent_append_pending accounted

theorem run_sent_append_pending {env : Environment} {conn final : Conn} {labels : List Label}
    (execution : Execution.run (connStep env) conn labels = some final) {sent : List UInt8}
    (accounted : sent ++ conn.pending = conn.wire) :
    sent ++ sentBytes env conn labels ++ final.pending = final.wire := by
  induction labels generalizing conn sent with
  | nil =>
      obtain rfl := Execution.run_nil.mp execution
      rwa [sentBytes, List.append_nil]
  | cons label labels ih =>
      obtain ⟨next, stepped, rest⟩ := Execution.run_cons.mp execution
      rw [sentBytes_cons stepped, ← List.append_assoc]
      exact ih rest (connStep_sent_append_pending stepped accounted)

/-! ## The end of a closing handshake -/

section

variable {env : Environment} {conn : Conn} {gone : Bool}

end

/-- The first write is the response, and only frames follow it. -/
theorem History.frames_follow {ledger : Ledger} {calls : List Call} {queued : List Write}
    (history : History ledger calls queued) :
    (ledger.progress = .silent ∧ queued = []) ∨
      (ledger.progress ≠ .silent ∧ ∃ (response : List UInt8) (frames : List (Fin 16 × List UInt8)),
        queued = .response response :: frames.map fun frame => .frame frame.1 frame.2) := by
  have extended : ∀ {queued : List Write} (opcode : Fin 16) (payload : List UInt8),
      (∃ (response : List UInt8) (frames : List (Fin 16 × List UInt8)),
        queued = .response response :: frames.map fun frame => .frame frame.1 frame.2) →
      ∃ (response : List UInt8) (frames : List (Fin 16 × List UInt8)),
        queued ++ [.frame opcode payload] =
          .response response :: frames.map fun frame => .frame frame.1 frame.2 := by
    rintro queued opcode payload ⟨response, frames, rfl⟩
    exact ⟨response, frames ++ [(opcode, payload)], by simp⟩
  induction history with
  | nil => exact Or.inl ⟨rfl, rfl⟩
  | response before accepted bytes silent ih =>
      obtain ⟨-, rfl⟩ | ⟨other, -⟩ := ih
      · exact Or.inr ⟨by simp, bytes, [], rfl⟩
      · exact absurd silent other
  | text before payload accepted answered ih =>
      obtain ⟨silent, -⟩ | ⟨other, shape⟩ := ih
      · simp [answered] at silent
      · exact Or.inr ⟨other, extended 1 payload shape⟩
  | pong before payload accepted answered ih =>
      obtain ⟨silent, -⟩ | ⟨other, shape⟩ := ih
      · simp [answered] at silent
      · exact Or.inr ⟨other, extended 10 payload shape⟩
  | latePong before payload past ih =>
      obtain ⟨silent, -⟩ | ⟨other, shape⟩ := ih
      · simp [silent] at past
      · exact Or.inr ⟨by simp, extended 10 payload shape⟩
  | closeFrame before payload accepted answered ih =>
      obtain ⟨silent, -⟩ | ⟨other, shape⟩ := ih
      · simp [answered] at silent
      · exact Or.inr ⟨by simp, extended 8 payload shape⟩
  | _ =>
      rename_i ih
      exact ih

end Jabsocket
