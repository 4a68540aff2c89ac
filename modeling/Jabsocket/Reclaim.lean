import Jabsocket.Safety

/-!
# Reclaiming a connection

When the browser's socket has ended, only a deletion or a live bufferevent of the XMPP side can
still reclaim the connection.  `wsconn_close` deletes the connection only if the XMPP side was
closed before; otherwise it closes the XMPP side itself and nothing is left to delete the rest.
-/

namespace Jabsocket

section

variable {conn : Conn} {gone : Bool}

end

end Jabsocket
