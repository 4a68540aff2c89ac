import Jabsocket.Connection

/-!
# Histories of a connection

The log and the queue of a connection grow by a few kinds of steps.  `History` says which step is
allowed when, in terms of a small ledger of what has happened so far; what the log and the queue
look like as a whole follows by induction along the history.
-/

namespace Jabsocket

/-- Progress of the output to the browser. -/
inductive Progress where
  /-- Nothing is queued. -/
  | silent
  /-- The response is queued. -/
  | answered
  /-- A Close frame is queued. -/
  | ended
  /-- A pong is queued behind the Close frame. -/
  | spoiled
  deriving DecidableEq, Repr

/-- What has happened so far. -/
structure Ledger where
  wsState : WsState
  /-- `WSCB_CLOSE` has been issued. -/
  closed : Bool
  /-- `wsconn_delete` has been executed. -/
  deleted : Bool
  /-- `rq_analyze` has accepted. -/
  accepted : Bool
  /-- `wsconn_event_cb` has handled the end of the browser's socket. -/
  gone : Bool
  progress : Progress
  deriving DecidableEq, Repr

/-- The pointers which `cm_onmessage` uses are not `NULL`. -/
def ManagerView.Ready (view : ManagerView) : Prop :=
  (view.state = .start → view.parser = true ∧ view.buffer = true) ∧
    (view.state = .forward → view.bev = true)

/-- Entries of the log which carry no obligation. -/
def Call.Harmless : Call → Prop
  | .connected | .xmppEvent _ | .managerClose false => True
  | _ => False

/-- The log and the queue which lead to a ledger. -/
inductive History : Ledger → List Call → List Write → Prop
  | nil :
      History
        { wsState := .start, closed := false, deleted := false, accepted := false, gone := false,
          progress := .silent } [] []
  | wsState {ledger calls queued} (before : History ledger calls queued) (state : WsState)
      (forward : ledger.wsState.rank ≤ state.rank) :
      History { ledger with wsState := state } (calls ++ [.wsState state]) queued
  | response {ledger calls queued} (before : History ledger calls queued) (accepted : Bool)
      (bytes : List UInt8) (silent : ledger.progress = .silent) :
      History { ledger with accepted, progress := .answered } (calls ++ [.analyzed accepted])
        (queued ++ [.response bytes])
  | message {ledger calls queued} (before : History ledger calls queued) (view : ManagerView)
      (accepted : ledger.accepted = true) (opened : ledger.closed = false) (ready : view.Ready) :
      History ledger (calls ++ [.message view]) queued
  | close {ledger calls queued} (before : History ledger calls queued)
      (opened : ledger.closed = false) :
      History { ledger with closed := true } (calls ++ [.close]) queued
  | delete {ledger calls queued} (before : History ledger calls queued)
      (alive : ledger.deleted = false) :
      History { ledger with deleted := true } (calls ++ [.delete]) queued
  | gone {ledger calls queued} (before : History ledger calls queued) :
      History { ledger with gone := true } (calls ++ [.browserGone]) queued
  | harmless {ledger calls queued} (before : History ledger calls queued) (call : Call)
      (harmless : call.Harmless) : History ledger (calls ++ [call]) queued
  | text {ledger calls queued} (before : History ledger calls queued) (payload : List UInt8)
      (accepted : ledger.accepted = true) (answered : ledger.progress = .answered) :
      History ledger calls (queued ++ [.frame opcodeText payload])
  | pong {ledger calls queued} (before : History ledger calls queued) (payload : List UInt8)
      (accepted : ledger.accepted = true) (answered : ledger.progress = .answered) :
      History ledger (calls ++ [.ping false]) (queued ++ [.frame opcodePong payload])
  | latePong {ledger calls queued} (before : History ledger calls queued) (payload : List UInt8)
      (past : ledger.progress = .ended ∨ ledger.progress = .spoiled) :
      History { ledger with progress := .spoiled } (calls ++ [.ping true])
        (queued ++ [.frame opcodePong payload])
  | closeFrame {ledger calls queued} (before : History ledger calls queued)
      (payload : List UInt8) (accepted : ledger.accepted = true)
      (answered : ledger.progress = .answered) :
      History { ledger with progress := .ended } calls (queued ++ [.frame opcodeClose payload])

/-! ## The log -/

/-- The state which an entry assigns to `ws_state`. -/
def Call.assigned : Call → Option WsState
  | .wsState state => some state
  | _ => none

theorem Call.Harmless.ne {call other : Call} (harmless : call.Harmless)
    (obliging : ¬ other.Harmless) : call ≠ other :=
  fun same => obliging (same ▸ harmless)

theorem Call.Harmless.assigned_eq {call : Call} (harmless : call.Harmless) :
    call.assigned = none := by
  cases call <;> first | rfl | cases harmless

theorem assigned_concat (calls : List Call) {call : Call} (other : call.assigned = none) :
    (calls ++ [call]).filterMap Call.assigned = calls.filterMap Call.assigned := by
  simp [List.filterMap_append, other]

namespace History

variable {ledger : Ledger} {calls : List Call} {queued : List Write}

/-- The assignments to `ws_state` never go back. -/
theorem forward (history : History ledger calls queued) :
    (calls.filterMap Call.assigned).Pairwise (fun first second => first.rank ≤ second.rank) ∧
      ∀ state ∈ calls.filterMap Call.assigned, state.rank ≤ ledger.wsState.rank := by
  induction history with
  | nil => simp
  | wsState before state forward ih =>
      obtain ⟨ordered, bounded⟩ := ih
      simp only [List.filterMap_append, List.filterMap_cons, List.filterMap_nil, Call.assigned]
      constructor
      · rw [List.pairwise_append]
        refine ⟨ordered, List.pairwise_singleton _ _, fun first member second last => ?_⟩
        obtain rfl : second = state := by simpa using last
        exact Nat.le_trans (bounded first member) forward
      · intro other member
        obtain earlier | rfl := by simpa using member
        · exact Nat.le_trans (bounded other (by simpa using earlier)) forward
        · exact Nat.le_refl _
  | response before accepted bytes silent ih => rwa [assigned_concat _ rfl]
  | message before view accepted opened ready ih => rwa [assigned_concat _ rfl]
  | close before opened ih => rwa [assigned_concat _ rfl]
  | delete before alive ih => rwa [assigned_concat _ rfl]
  | gone before ih => rwa [assigned_concat _ rfl]
  | harmless before call harmless ih => rwa [assigned_concat _ harmless.assigned_eq]
  | text before payload accepted answered ih => exact ih
  | pong before payload accepted answered ih => rwa [assigned_concat _ rfl]
  | latePong before payload past ih => rwa [assigned_concat _ rfl]
  | closeFrame before payload accepted answered ih => exact ih

theorem count_close (history : History ledger calls queued) :
    calls.count .close = ledger.closed.toNat := by
  induction history with
  | harmless before call harmless ih =>
      have other : call ≠ .close := harmless.ne id
      simpa [List.count_append, other] using ih
  | _ => simp_all

/-- No entry is made before the first response, apart from assignments and harmless ones. -/
theorem analyzed_iff (history : History ledger calls queued) :
    (ledger.progress = .silent → .analyzed true ∉ calls ∧ ledger.accepted = false) ∧
      (.analyzed true ∈ calls ↔ ledger.accepted = true) := by
  induction history with
  | harmless before call harmless ih =>
      have other : call ≠ .analyzed true := harmless.ne id
      simpa [other.symm] using ih
  | _ => simp_all

/-- Messages are passed on only after an accepted handshake and before `WSCB_CLOSE`, and only to a
manager which is ready for them. -/
theorem message_ready (history : History ledger calls queued) {earlier later : List Call}
    {view : ManagerView} (split_calls : calls = earlier ++ .message view :: later) :
    .analyzed true ∈ earlier ∧ .close ∉ earlier ∧ view.Ready := by
  have snoc : ∀ (calls : List Call) (call : Call) (later : List Call),
      calls ++ [call] = earlier ++ .message view :: later →
        (later = [] ∧ calls = earlier ∧ call = .message view) ∨
          ∃ later', calls = earlier ++ .message view :: later' := by
    intro calls call later same
    rcases List.eq_nil_or_concat later with rfl | ⟨later', last, rfl⟩
    · obtain ⟨rfl, last⟩ := List.append_inj' same rfl
      exact Or.inl ⟨rfl, rfl, List.cons.inj last |>.1⟩
    · rw [List.concat_eq_append, ← List.cons_append, ← List.append_assoc] at same
      exact Or.inr ⟨later', (List.append_inj' same rfl).1⟩
  induction history generalizing later with
  | nil => simp at split_calls
  | message before other accepted opened ready ih =>
      obtain ⟨rfl, rfl, same⟩ | ⟨later', same⟩ := snoc _ _ _ split_calls
      · obtain rfl : other = view := by injection same
        refine ⟨before.analyzed_iff.2.mpr accepted, fun closed => ?_, ready⟩
        have count := before.count_close
        rw [opened, Bool.toNat_false, List.count_eq_zero] at count
        exact count closed
      · exact ih same
  | harmless before call harmless ih =>
      obtain ⟨-, -, rfl⟩ | ⟨later', same⟩ := snoc _ _ _ split_calls
      · cases harmless
      · exact ih same
  | text before payload accepted answered ih => exact ih split_calls
  | closeFrame before payload accepted answered ih => exact ih split_calls
  | _ =>
      rename_i ih
      obtain ⟨-, -, same⟩ | ⟨later', same⟩ := snoc _ _ _ split_calls
      · cases same
      · exact ih same

end History

/-! ## The queue -/

namespace History

variable {ledger : Ledger} {calls : List Call} {queued : List Write}

end History

end Jabsocket
