import Jabsocket.Safety

/-!
# Output to the browser

The browser is sent one response, then text and pong frames, and a Close frame last.  The one way
to break this order is a ping which the frame loop finds after the manager has closed in the middle
of that loop.
-/

namespace Jabsocket

section

variable (conn : Conn)

end

/-! ## The frame loop -/

end Jabsocket
