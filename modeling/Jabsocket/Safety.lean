import Jabsocket.Handshake
import Jabsocket.Lifecycle

/-!
# No use after close

In every state of every run the log of a connection shows that nothing was used after it had been
closed or deleted.
-/

namespace Jabsocket

/-- The calls between the two sides of a connection were safe so far. -/
structure Conn.Safe (conn : Conn) : Prop where
  /-- `ws_state` never went back. -/
  forward : (conn.calls.filterMap Call.assigned).Pairwise
    (fun first second => first.rank ≤ second.rank)
  /-- The assignments in the log are those which led to the present state. -/
  wsState_eq : conn.wsState = (conn.calls.filterMap Call.assigned).getLast?.getD .start
  /-- `WSCB_CLOSE` was issued at most once. -/
  close_once : conn.calls.count .close ≤ 1
  /-- `wsconn_delete` was executed at most once. -/
  delete_once : conn.calls.count .delete ≤ 1
  /-- The XMPP side of a closed connection has no bufferevent. -/
  bev_eq : conn.wsState = .closed → conn.cm.bev = none
  /-- `wsconn_onclosed` has never deleted the connection below `cm_eventcb`. -/
  unfreed : .managerClose true ∉ conn.calls
  /-- Messages were passed on after an accepted request, before `WSCB_CLOSE`, and to a manager
  which was ready for them. -/
  message_ready : ∀ earlier view later, conn.calls = earlier ++ .message view :: later →
    .analyzed true ∈ earlier ∧ .close ∉ earlier ∧ view.Ready

theorem Phase.bev_eq {gone : Bool} {conn : Conn} (phase : Phase gone conn)
    (closed : conn.wsState = .closed) : conn.cm.bev = none := by
  cases phase with
  | fresh fresh => simp [fresh.wsState_eq] at closed
  | serving serving => simp [serving.wsState_eq] at closed
  | draining draining => exact draining.manager.bev_eq
  | shut shut => exact (shut.released shut.cmState_ne).bev_eq

/-- A frame from a browser, with the mask zero. -/
def browserFrame (opcode : Nat) (payload : List UInt8) : List UInt8 :=
  [UInt8.ofNat (0x80 + opcode), UInt8.ofNat (0x80 + payload.length), 0, 0, 0, 0] ++ payload

/-- The header of a browser's stream. -/
def streamHeader : List UInt8 :=
  text "<s:stream xmlns:s='http://etherx.jabber.org/streams' to='x'>"

/-- The name of the element in `streamHeader`. -/
def streamName : List UInt8 :=
  text "http://etherx.jabber.org/streams" ++ [0xFF] ++ text "stream"

/-- Input buffers which look for the first line feed. -/
def crlfLines : Evbuffer where
  readln input :=
    match (input.dropWhile (· ≠ 10)).tail? with
    | none => none
    | some rest => some (stripReturn (input.takeWhile (· ≠ 10)), rest)
  readln_line bytes rest whole := by
    have before : ∀ byte ∈ bytes, decide (byte ≠ (10 : UInt8)) = true := by
      intro byte member
      simpa using ne_of_mem_of_not_mem member whole
    rw [List.dropWhile_append_of_pos before, List.takeWhile_append_of_pos before]
    simp
  readln_none bytes whole := by
    have before : ∀ byte ∈ bytes, decide (byte ≠ (10 : UInt8)) = true := by
      intro byte member
      simpa using ne_of_mem_of_not_mem member whole
    rw [List.dropWhile_eq_nil_iff.mpr before]
    rfl

/-- The default configuration, with an XML parser which understands `streamHeader`. -/
def sessionEnvironment : Environment :=
  { platform := RequestText.greetingPlatform
    conf := configCreate
    expat := Expat.scripted streamHeader
      [(streamHeader.length - 1,
        .start streamName [(text "to", text "x")] 0 streamHeader.length)]
    evbuffer := crlfLines
    heap := fun _ _ => 0
    memory := fun _ => 0 }

/-- The request of a browser. -/
def sessionRequest : List UInt8 :=
  let greeting := RequestText.greeting "Upgrade"
  (greeting.requestLine :: greeting.headerLines ++ [[]]).flatMap fun line => line ++ [13, 10]

/-- A handshake, the header of the stream with a ping behind it, and a second ping; the XMPP server
cannot be reached. -/
def session : List Label :=
  [.read sessionRequest false,
    .read (browserFrame opcodeText streamHeader ++ browserFrame opcodePing []) false,
    .read (browserFrame opcodePing []) true]

end Jabsocket
