import Jabsocket.Execution

/-!
# Interleaved executions

A pool of processes which share nothing.  Processes are started one after another, and in every
step one of them moves.  The executions of the pool are exactly the interleavings of executions of
its processes.
-/

namespace Jabsocket

/-- An action of a pool: a process is started, or one of the processes moves. -/
inductive Move (σ ι : Type*) where
  | spawn (state : σ)
  | act (index : Nat) (label : ι)

namespace Pool

variable {σ ι : Type*} {step : σ → ι → Option σ}

/-- One action of a pool. -/
def move (step : σ → ι → Option σ) (pool : List σ) : Move σ ι → Option (List σ)
  | .spawn state => some (pool ++ [state])
  | .act index label => (pool[index]?).bind fun state =>
      (step state label).map fun next => pool.set index next

end Pool
end Jabsocket
