import Mathlib.Data.List.Basic
import Mathlib.Logic.Function.Basic
import Mathlib.Tactic.Common

/-!
# Bounded queues

A queue keeps what is pushed into it up to a limit on its length, where the limit zero means
unlimited.  Only a push into a full queue is refused.  A bank is a family of queues, or of whatever
implements them, together with the results which the operations on it have returned.
-/

namespace Jabsocket

/-- A queue with a limit on its length; the limit zero means unlimited. -/
structure BoundedQueue (α : Type*) where
  /-- The limit on the length. -/
  limit : Nat
  /-- What the queue holds, the oldest item first. -/
  items : List α
  /-- A limited queue does not exceed its limit. -/
  within : limit = 0 ∨ items.length ≤ limit

namespace BoundedQueue

variable {α : Type*}

/-- What a limit leaves of some items. -/
def clip (limit : Nat) (items : List α) : List α :=
  if limit = 0 then items else items.take limit

theorem clip_within (limit : Nat) (items : List α) :
    limit = 0 ∨ (clip limit items).length ≤ limit := by
  rcases eq_or_ne limit 0 with unlimited | limited
  · exact Or.inl unlimited
  · rw [clip, if_neg limited]
    exact Or.inr (List.length_take_le limit items)

@[simp] theorem clip_unlimited (items : List α) : clip 0 items = items := if_pos rfl

theorem clip_of_limited {limit : Nat} (limited : limit ≠ 0) (items : List α) :
    clip limit items = items.take limit :=
  if_neg limited

theorem clip_of_le {limit : Nat} {items : List α} (fits : limit = 0 ∨ items.length ≤ limit) :
    clip limit items = items := by
  rcases eq_or_ne limit 0 with rfl | limited
  · exact clip_unlimited items
  · rw [clip_of_limited limited]
    exact List.take_of_length_le (fits.resolve_left limited)

/-- The queue with the given limit which holds nothing. -/
def empty (α : Type*) (limit : Nat) : BoundedQueue α where
  limit := limit
  items := []
  within := Or.inr (Nat.zero_le limit)

/-- The queue holds as much as its limit allows. -/
def Full (queue : BoundedQueue α) : Prop := queue.limit ≠ 0 ∧ queue.items.length = queue.limit

instance (queue : BoundedQueue α) : Decidable queue.Full := inferInstanceAs (Decidable (_ ∧ _))

/-- Replace the content of a queue by what its limit leaves of some items. -/
def fill (queue : BoundedQueue α) (items : List α) : BoundedQueue α where
  limit := queue.limit
  items := clip queue.limit items
  within := clip_within queue.limit items

/-- Push items at the end; the push is refused when there is something to push and the queue is
full. -/
def push (queue : BoundedQueue α) (items : List α) : BoundedQueue α × Bool :=
  (queue.fill (queue.items ++ items), ! decide (queue.Full ∧ items ≠ []))

/-- Drop items from the front. -/
def drop (queue : BoundedQueue α) (count : Nat) : BoundedQueue α where
  limit := queue.limit
  items := queue.items.drop count
  within := queue.within.imp_right fun bounded => by
    rw [List.length_drop]
    omega

/-- Pushing into an emptied queue fills it. -/
theorem push_fill_nil (queue : BoundedQueue α) (items : List α) :
    (queue.fill []).push items = (queue.fill items, true) := by
  have emptied : (queue.fill []).items = [] := by simp [fill, clip]
  have free : ¬ ((queue.fill []).Full ∧ items ≠ []) := by
    rintro ⟨⟨limited, full⟩, -⟩
    rw [emptied] at full
    exact limited full.symm
  rw [push, emptied, List.nil_append, decide_eq_false free]
  rfl

end BoundedQueue

/-! ## Banks -/

/-- The operations on a family of queues. -/
inductive QueueOp (ι α : Type*) where
  /-- Push items into a queue. -/
  | append (index : ι) (items : List α)
  /-- Replace the content of a queue. -/
  | setData (index : ι) (items : List α)
  /-- Empty a queue. -/
  | clear (index : ι)
  /-- Drop items from the front of a queue. -/
  | removeData (index : ι) (count : Nat)
  /-- Move the content of one queue into another. -/
  | move (source dest : ι)
  deriving DecidableEq, Repr

/-- A family of queues, with the results returned so far. -/
structure Bank (ι σ : Type*) where
  /-- The members of the family. -/
  cells : ι → σ
  /-- The results of the operations, in their order. -/
  results : List Bool

namespace Bank

variable {ι σ : Type*} [DecidableEq ι]

/-- Replace a member. -/
def put (bank : Bank ι σ) (index : ι) (cell : σ) : Bank ι σ :=
  { bank with cells := Function.update bank.cells index cell }

/-- Replace a member and note the result which the operation returned. -/
def report (bank : Bank ι σ) (index : ι) (outcome : σ × Bool) : Bank ι σ where
  cells := Function.update bank.cells index outcome.1
  results := bank.results ++ [outcome.2]

/-- An operation on a family of bounded queues.  A queue which is moved into another one is left
empty, also when it is moved into itself. -/
def queueStep {α : Type*} (bank : Bank ι (BoundedQueue α)) :
    QueueOp ι α → Bank ι (BoundedQueue α)
  | .append index items => bank.report index ((bank.cells index).push items)
  | .setData index items => bank.report index ((bank.cells index).fill items, true)
  | .clear index => bank.put index ((bank.cells index).fill [])
  | .removeData index count => bank.put index ((bank.cells index).drop count)
  | .move source dest =>
      (bank.report dest ((bank.cells dest).fill (bank.cells source).items, true)).put source
        ((bank.cells source).fill [])

theorem limit_update {α : Type*} (cells : ι → BoundedQueue α) (place : ι) (queue : BoundedQueue α)
    (same : queue.limit = (cells place).limit) (index : ι) :
    (Function.update cells place queue index).limit = (cells index).limit := by
  rcases eq_or_ne index place with rfl | elsewhere
  · rw [Function.update_self, same]
  · rw [Function.update_of_ne elsewhere]

/-- No operation changes the limit of a queue. -/
theorem queueStep_limit {α : Type*} (bank : Bank ι (BoundedQueue α)) (op : QueueOp ι α)
    (index : ι) : ((bank.queueStep op).cells index).limit = (bank.cells index).limit := by
  cases op with
  | append place items =>
      exact limit_update bank.cells place ((bank.cells place).push items).1 rfl index
  | setData place items =>
      exact limit_update bank.cells place ((bank.cells place).fill items) rfl index
  | clear place =>
      exact limit_update bank.cells place ((bank.cells place).fill []) rfl index
  | removeData place count =>
      exact limit_update bank.cells place ((bank.cells place).drop count) rfl index
  | move source dest =>
      have filled := limit_update bank.cells dest
        ((bank.cells dest).fill (bank.cells source).items) rfl
      exact (limit_update _ source ((bank.cells source).fill []) (filled source).symm index).trans
        (filled index)

/-- A relation between two implementations holds between all of their members, and both have
returned the same results. -/
structure Related {τ : Type*} (relation : σ → τ → Prop) (bank : Bank ι σ) (other : Bank ι τ) :
    Prop where
  cells : ∀ index, relation (bank.cells index) (other.cells index)
  results : bank.results = other.results

variable {τ : Type*} {relation : σ → τ → Prop} {bank : Bank ι σ} {other : Bank ι τ}

theorem Related.put (related : Related relation bank other) (index : ι) {cell : σ} {cell' : τ}
    (same : relation cell cell') : Related relation (bank.put index cell) (other.put index cell')
    where
  cells := fun place => by
    simp only [Bank.put, Function.update_apply]
    split
    · exact same
    · exact related.cells place
  results := related.results

theorem Related.report (related : Related relation bank other) (index : ι) {outcome : σ × Bool}
    {outcome' : τ × Bool} (same : relation outcome.1 outcome'.1)
    (result : outcome.2 = outcome'.2) :
    Related relation (bank.report index outcome) (other.report index outcome') where
  cells := (related.put index same).cells
  results := by simp [Bank.report, related.results, result]

end Bank

end Jabsocket
