import Mathlib.Data.Vector.Defs
import Jabsocket.Interleaving
import Jabsocket.Safety

/-!
# The server

The connections of a server share its settings, the heap, and the static array of `cm_readcb`,
through which the frames of every XMPP stream go on their way to a browser.  What lies behind a
buffer may be what another connection has left there, so every call finds a heap of its own.  Apart
from what is read there no byte goes from one connection to another: in every run of the server each
connection is where its own handler calls lead.
-/

namespace Jabsocket

/-! ## The shared array -/

/-- `data_t` over an array which keeps its bytes from one use to the next. -/
structure SharedData (capacity : Nat) where
  buffer : List.Vector UInt8 capacity
  length : Nat

variable {capacity : Nat}

theorem SharedData.length_overwrite (data : SharedData capacity) (input : List UInt8) :
    (overwrite data.buffer.val 0 (input.take capacity)).length = capacity := by
  have bound : 0 + (input.take capacity).length ≤ data.buffer.val.length := by
    rw [data.buffer.property, List.length_take]
    omega
  rw [Jabsocket.length_overwrite bound, data.buffer.property]

/-- The bytes which `wsconn_write` is given. -/
def SharedData.bytes (data : SharedData capacity) : List UInt8 :=
  data.buffer.val.take data.length

/-- What libevent calls: the listener, for a connection whose request is stored in memory with the
given contents, or a handler of one of the connections, which finds the heap with the given
contents. -/
inductive ServerLabel where
  | accept (memory : Nat → UInt8)
  | handle (index : Nat) (heap : Heap) (label : Label)

/-- A call as an action of a pool of connections. -/
def ServerLabel.move (env : Environment) : ServerLabel → Move Conn (Heap × Label)
  | .accept memory => .spawn (wsconnCreate { env with memory })
  | .handle index heap label => .act index (heap, label)

end Jabsocket
