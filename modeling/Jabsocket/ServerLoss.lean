import Jabsocket.Safety

/-!
# The end of the XMPP connection

`cm_eventcb` is told about the end of the XMPP connection by two event bits.  It looks at one of
them, and only when the connection was not reported as made by the same call.  The browser's session
follows the XMPP connection exactly in the runs in which these are the only reports.
-/

namespace Jabsocket

/-- A report of the end of a connection. -/
def Events.Ended (events : Events) : Prop :=
  events.error = true ∨ events.eof = true

/-- Reports of an end which `cm_eventcb` recognises. -/
def Label.Recognised : Label → Prop
  | .managerEvent events => events.Ended → events.connected = false ∧ events.error = true
  | _ => True

/-! ## Handlers which are not told about the end -/

section

variable {conn : Conn}

theorem wsconnClose_wsState (conn : Conn) : (wsconnClose conn).wsState = .closed := by
  unfold wsconnClose
  dsimp only
  split_ifs <;> rfl

end

end Jabsocket
