import Jabsocket.Outbox

/-!
# Connections which are about to end

`wsconn_close_send` marks a connection so that it is closed when its output was sent, and
`wsconn_close` gives it up at once.  What is left of the life of a connection after each of them is
decided by the calls of two handlers: the first waits for the write callback, the second for the
end of the browser's socket, which then finds the connection reclaimable or not.
-/

namespace Jabsocket

/-- `wsconn_close_send`. -/
def wsconnCloseSend (conn : Conn) : Conn :=
  let conn := conn.setWsState .closing
  if conn.cmState = .created then conn.closeManager else conn

/-! ## After `wsconn_close_send` -/

/-- The output is being sent, and the XMPP side is gone. -/
structure Conn.Departing (conn : Conn) : Prop where
  wsState_eq : conn.wsState = .closing
  bev_eq : conn.cm.bev = none

section

variable {env : Environment} {conn next : Conn} {label : Label}

/-- The manager of a connection exists only until it was told to close. -/
theorem Phase.departing {gone : Bool} (phase : Phase gone conn) :
    (wsconnCloseSend conn).Departing := by
  have released := phase.closable.released
  unfold wsconnCloseSend
  dsimp only
  split_ifs with created
  · exact ⟨rfl, rfl⟩
  · exact ⟨rfl, (released created).bev_eq⟩

/-- While the output is being sent the handlers only send it, and the last write callback deletes
the connection. -/
theorem Conn.Departing.step (departing : conn.Departing)
    (stepped : connStep env conn label = some next) (stays : label.browserGone = false) :
    next.Departing ∧ next.queued = conn.queued ∧
      conn.sends label ++ next.pending = conn.pending ∧
      (next.deleted = true ↔ next.pending = [] ∧ ∃ sent, label = .write sent) := by
  obtain ⟨alive, handled⟩ := handles_of_connStep stepped
  cases handled with
  | read bytes sync =>
      rw [wsconnReadCb_ended env { conn with input := conn.input ++ bytes }
        (Or.inl departing.wsState_eq)]
      exact ⟨⟨departing.wsState_eq, departing.bev_eq⟩, rfl, rfl, by simp [alive]⟩
  | write sent =>
      have split_pending : conn.pending.take sent ++ conn.pending.drop sent = conn.pending :=
        List.take_append_drop sent conn.pending
      rw [wsconnWriteCb]
      split_ifs with flushed
      · exact ⟨⟨departing.wsState_eq, rfl⟩, rfl, split_pending,
          iff_of_true rfl ⟨flushed.2, sent, rfl⟩⟩
      · refine ⟨⟨departing.wsState_eq, departing.bev_eq⟩, rfl, split_pending,
          iff_of_false (by simp [alive]) fun empty => ?_⟩
        exact flushed ⟨departing.wsState_eq, empty.1⟩
  | event events =>
      have same : wsconnEventCb conn events = conn := by
        rw [wsconnEventCb, if_neg (by simpa [Label.browserGone] using stays)]
      rw [same]
      exact ⟨departing, rfl, rfl, by simp [alive]⟩
  | managerRead bytes bev_eq => simp [departing.bev_eq] at bev_eq
  | managerEvent events present => simp [departing.bev_eq] at present

theorem Conn.Departing.run {labels : List Label} {final : Conn} (departing : conn.Departing)
    (alive : conn.deleted = false)
    (execution : Execution.run (connStep env) conn labels = some final)
    (stays : ∀ label ∈ labels, label.browserGone = false) :
    final.queued = conn.queued ∧ sentBytes env conn labels ++ final.pending = conn.pending ∧
      (final.deleted = true ↔
        final.pending = [] ∧ ∃ earlier sent, labels = earlier ++ [.write sent]) := by
  induction labels generalizing conn with
  | nil =>
      obtain rfl := Execution.run_nil.mp execution
      exact ⟨rfl, rfl, by simp [alive]⟩
  | cons label labels ih =>
      obtain ⟨next, stepped, rest⟩ := Execution.run_cons.mp execution
      obtain ⟨first, later⟩ := List.forall_mem_cons.mp stays
      obtain ⟨departing', queued_eq, pending_eq, deleted_iff⟩ := departing.step stepped first
      rw [sentBytes_cons stepped, List.append_assoc]
      cases labels with
      | nil =>
          obtain rfl := Execution.run_nil.mp rest
          refine ⟨queued_eq, pending_eq, deleted_iff.trans (and_congr_right fun _ => ?_)⟩
          constructor
          · rintro ⟨sent, rfl⟩
            exact ⟨[], sent, rfl⟩
          · rintro ⟨earlier, sent, split_labels⟩
            exact ⟨sent, List.mem_singleton.mp (split_labels ▸ List.mem_concat_self) |>.symm⟩
      | cons second labels =>
          obtain ⟨_, second_step, _⟩ := Execution.run_cons.mp rest
          obtain ⟨queued_eq', pending_eq', deleted_iff'⟩ :=
            ih departing' (handles_of_connStep second_step).1 rest later
          refine ⟨queued_eq'.trans queued_eq, by rw [pending_eq', pending_eq], ?_⟩
          refine deleted_iff'.trans (and_congr_right fun _ => ?_)
          constructor
          · rintro ⟨earlier, sent, split_labels⟩
            exact ⟨label :: earlier, sent, by rw [split_labels, List.cons_append]⟩
          · rintro ⟨earlier, sent, split_labels⟩
            cases earlier with
            | nil => simp at split_labels
            | cons head earlier => exact ⟨earlier, sent, (List.cons.inj split_labels).2⟩

/-- The browser side is closed, and the XMPP side is gone. -/
structure Conn.GivenUp (conn : Conn) : Prop where
  wsState_eq : conn.wsState = .closed
  cmState_ne : conn.cmState ≠ .created
  bev_eq : conn.cm.bev = none

/-- Only the end of the browser's socket has an effect. -/
theorem Conn.GivenUp.step (givenUp : conn.GivenUp)
    (stepped : connStep env conn label = some next) :
    next.GivenUp ∧ next.queued = conn.queued ∧ next.flCmClosed = conn.flCmClosed ∧
      (next.deleted = true ↔ conn.flCmClosed = true ∧ label.browserGone = true) := by
  obtain ⟨wsState_eq, cmState_ne, bev_eq⟩ := givenUp
  obtain ⟨alive, handled⟩ := handles_of_connStep stepped
  cases handled with
  | read bytes sync =>
      rw [wsconnReadCb_ended env { conn with input := conn.input ++ bytes } (Or.inr wsState_eq)]
      exact ⟨⟨wsState_eq, cmState_ne, bev_eq⟩, rfl, rfl, by simp [alive, Label.browserGone]⟩
  | write sent =>
      rw [wsconnWriteCb, if_neg (by simp [wsState_eq])]
      exact ⟨⟨wsState_eq, cmState_ne, bev_eq⟩, rfl, rfl, by simp [alive, Label.browserGone]⟩
  | event events =>
      rw [wsconnEventCb, Label.browserGone]
      split_ifs with ended
      · have kept : ((conn.log .browserGone).setWsState .closed).cmState ≠ .created := cmState_ne
        simp only [wsconnClose, if_neg kept]
        split_ifs with closed
        · have flag : conn.flCmClosed = true := closed
          exact ⟨⟨rfl, cmState_ne, rfl⟩, rfl, rfl, iff_of_true rfl ⟨flag, ended⟩⟩
        · have flag : ¬ conn.flCmClosed = true := closed
          refine ⟨⟨rfl, cmState_ne, bev_eq⟩, rfl, rfl, iff_of_false ?_ fun both => flag both.1⟩
          simp [Conn.setWsState, Conn.log, alive]
      · exact ⟨⟨wsState_eq, cmState_ne, bev_eq⟩, rfl, rfl, by simp [alive, ended]⟩
  | managerRead bytes present => simp [bev_eq] at present
  | managerEvent events present => simp [bev_eq] at present

end

end Jabsocket
