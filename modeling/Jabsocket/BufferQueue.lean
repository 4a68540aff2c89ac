import Jabsocket.BoundedQueue
import Jabsocket.Buffer
import Jabsocket.Execution

/-!
# Buffers as bounded queues

The buffers of `util.c` implement bounded queues of bytes.  A family of buffers is used by any
sequence of operations; each operation returns what the queue operation returns, and the buffers
represent the queues throughout, within the size of their allocations.
-/

namespace Jabsocket

/-- A buffer holds the bytes of a queue, within an allocation which does not exceed the limit. -/
structure Buffer.Represents (buffer : Buffer) (queue : BoundedQueue UInt8) : Prop where
  data : buffer.data = queue.items
  limit : buffer.maxLength = queue.limit
  allocated : buffer.length ≤ buffer.capacity
  limited : 0 < queue.limit → buffer.capacity ≤ queue.limit

/-! ## The allocation -/

/-- The allocation of a buffer covers its bytes and stays within the limit. -/
structure Buffer.Allocated (buffer : Buffer) : Prop where
  covers : buffer.length ≤ buffer.capacity
  limited : 0 < buffer.maxLength → buffer.capacity ≤ buffer.maxLength

theorem Buffer.Represents.toAllocated {buffer : Buffer} {queue : BoundedQueue UInt8}
    (represents : buffer.Represents queue) : buffer.Allocated where
  covers := represents.allocated
  limited := by simpa [represents.limit] using represents.limited

theorem Buffer.Allocated.represents {buffer : Buffer} {queue : BoundedQueue UInt8}
    (allocated : buffer.Allocated) (data : buffer.data = queue.items)
    (limit : buffer.maxLength = queue.limit) : buffer.Represents queue where
  data := data
  limit := limit
  allocated := allocated.covers
  limited := by simpa [limit] using allocated.limited

theorem bufferCreate_allocated (maxLength : Nat) : (bufferCreate maxLength).Allocated where
  covers := Nat.zero_le _
  limited := by
    intro limited
    have limited : 0 < maxLength := limited
    simp only [bufferCreate, limited, true_and]
    split <;> omega

theorem Buffer.Allocated.clear {buffer : Buffer} (allocated : buffer.Allocated) :
    (bufferClear buffer).Allocated where
  covers := Nat.zero_le _
  limited := allocated.limited

theorem Buffer.Allocated.remove {buffer : Buffer} (allocated : buffer.Allocated) (count : Nat) :
    (bufferRemoveData buffer count).Allocated where
  covers := by
    have covers := allocated.covers
    simp only [Buffer.length, bufferRemoveData, List.length_drop] at covers ⊢
    omega
  limited := allocated.limited

section Append

variable {sizeMod : Nat} {buffer : Buffer} {input : List UInt8}

/-- An append to an unlimited buffer grows the allocation as far as the bytes need it. -/
theorem bufferAppend_allocated_unlimited (unlimited : buffer.maxLength = 0)
    (covers : buffer.length ≤ buffer.capacity)
    (fits : buffer.length + input.length + 1024 < sizeMod) :
    (bufferAppend sizeMod buffer input).1.length ≤
      (bufferAppend sizeMod buffer input).1.capacity := by
  have data := (bufferAppend_unlimited buffer input unlimited (Or.inr fits)).1
  have needed : sizeAdd sizeMod buffer.length input.length = buffer.length + input.length :=
    sizeAdd_of_lt (by omega)
  have grown : sizeAdd sizeMod (buffer.length + input.length) 1024 =
      buffer.length + input.length + 1024 :=
    sizeAdd_of_lt fits
  rw [Buffer.length, data, List.length_append]
  change buffer.length + input.length ≤ _
  simp only [bufferAppend, unlimited, needed, grown, if_true]
  split
  · dsimp only
    omega
  · dsimp only
    split <;> omega

/-- An append to a limited buffer grows the allocation at most up to the limit. -/
theorem bufferAppend_allocated_limited (limited : buffer.maxLength ≠ 0)
    (allocated : buffer.Allocated)
    (fits : buffer.length + input.length + 1024 < sizeMod) :
    (bufferAppend sizeMod buffer input).1.Allocated := by
  obtain ⟨covers, bounded⟩ := allocated
  have bounded := bounded (Nat.pos_of_ne_zero limited)
  have needed : sizeAdd sizeMod buffer.length input.length = buffer.length + input.length :=
    sizeAdd_of_lt (by omega)
  obtain ⟨count, count_eq, count_le, room⟩ : ∃ count,
      (if buffer.maxLength < buffer.length + input.length then
        sizeSub sizeMod buffer.maxLength buffer.length else input.length) = count ∧
      count ≤ input.length ∧ buffer.length + count ≤ buffer.maxLength := by
    refine ⟨_, rfl, ?_⟩
    split
    · rw [sizeSub_of_le (by omega) (by omega)]
      omega
    · omega
  have taken : sizeAdd sizeMod buffer.length count = buffer.length + count :=
    sizeAdd_of_lt (by omega)
  have grown : sizeAdd sizeMod (buffer.length + count) 1024 = buffer.length + count + 1024 :=
    sizeAdd_of_lt (by omega)
  simp only [bufferAppend, if_neg limited, needed, count_eq, taken, grown]
  split
  · exact ⟨covers, fun _ => bounded⟩
  split
  · exact ⟨covers, fun _ => bounded⟩
  have length : (buffer.data ++ input.take count).length = buffer.length + count := by
    rw [List.length_append, List.length_take, Nat.min_eq_left count_le]
    rfl
  refine ⟨?_, fun _ => ?_⟩
  · change (buffer.data ++ input.take count).length ≤ _
    rw [length]
    dsimp only
    repeat' split
    all_goals omega
  · dsimp only
    repeat' split
    all_goals omega

/-- An append of which no sum wraps keeps the allocation in order. -/
theorem Buffer.Allocated.append (allocated : buffer.Allocated)
    (fits : buffer.length + input.length + 1024 < sizeMod) :
    (bufferAppend sizeMod buffer input).1.Allocated := by
  rcases eq_or_ne buffer.maxLength 0 with unlimited | limited
  · refine ⟨bufferAppend_allocated_unlimited unlimited allocated.covers fits, fun limited => ?_⟩
    rw [bufferAppend_maxLength, unlimited] at limited
    exact absurd limited (Nat.lt_irrefl 0)
  · exact bufferAppend_allocated_limited limited allocated fits

/-- An append of which no sum wraps is a push into the queue. -/
theorem Buffer.Represents.append {queue : BoundedQueue UInt8} (represents : buffer.Represents queue)
    (fits : buffer.length + input.length + 1024 < sizeMod) :
    (bufferAppend sizeMod buffer input).1.Represents (queue.push input).1 ∧
      (bufferAppend sizeMod buffer input).2 = (queue.push input).2 := by
  have allocated := represents.toAllocated.append fits
  have limit : (bufferAppend sizeMod buffer input).1.maxLength = queue.limit :=
    (bufferAppend_maxLength sizeMod buffer input).trans represents.limit
  suffices same : (bufferAppend sizeMod buffer input).1.data = (queue.push input).1.items ∧
      (bufferAppend sizeMod buffer input).2 = (queue.push input).2 from
    ⟨allocated.represents same.1 limit, same.2⟩
  rcases eq_or_ne input [] with rfl | nonempty
  · simp [bufferAppend, BoundedQueue.push, BoundedQueue.fill, represents.data,
      BoundedQueue.clip_of_le queue.within]
  rcases eq_or_ne queue.limit 0 with unlimited | limited
  · obtain ⟨data, result⟩ := bufferAppend_unlimited buffer input
      (represents.limit.trans unlimited) (Or.inr fits)
    simp [data, result, represents.data, BoundedQueue.push, BoundedQueue.fill, BoundedQueue.Full,
      unlimited]
  · have within : queue.items.length ≤ queue.limit := queue.within.resolve_left limited
    have length : buffer.length = queue.items.length := congrArg List.length represents.data
    obtain ⟨data, result⟩ := @bufferAppend_limited sizeMod buffer input
      (represents.limit.trans_ne limited) nonempty
      (Or.inr ⟨by omega, by rw [represents.limit, length]; exact within⟩)
    rw [data, result, represents.data, represents.limit, length]
    refine ⟨?_, ?_⟩
    · simp only [BoundedQueue.push, BoundedQueue.fill, BoundedQueue.clip_of_limited limited]
      rw [List.take_append, List.take_of_length_le within]
    · simp only [BoundedQueue.push, BoundedQueue.Full, nonempty, ne_eq, limited, not_false_eq_true,
        true_and, and_true]
      rcases Nat.lt_or_eq_of_le within with free | full
      · simp [free, Nat.ne_of_lt free]
      · simp [full]

/-- A refused append changes nothing. -/
theorem bufferAppend_refused (refused : (bufferAppend sizeMod buffer input).2 = false) :
    (bufferAppend sizeMod buffer input).1 = buffer := by
  revert refused
  unfold bufferAppend
  dsimp only
  repeat' split
  all_goals simp

end Append

/-! ## The other operations -/

section Operations

variable {buffer : Buffer} {queue : BoundedQueue UInt8}

theorem bufferCreate_represents (maxLength : Nat) :
    (bufferCreate maxLength).Represents (BoundedQueue.empty UInt8 maxLength) :=
  (bufferCreate_allocated maxLength).represents rfl rfl

theorem Buffer.Represents.clear (represents : buffer.Represents queue) :
    (bufferClear buffer).Represents (queue.fill []) :=
  represents.toAllocated.clear.represents (by simp [BoundedQueue.fill, BoundedQueue.clip])
    represents.limit

theorem Buffer.Represents.remove (represents : buffer.Represents queue) (count : Nat) :
    (bufferRemoveData buffer count).Represents (queue.drop count) :=
  (represents.toAllocated.remove count).represents
    (congrArg (List.drop count) represents.data) represents.limit

theorem Buffer.Represents.setData {sizeMod : Nat} {input : List UInt8}
    (represents : buffer.Represents queue) (fits : input.length + 1024 < sizeMod) :
    (bufferSetData sizeMod buffer input).1.Represents (queue.fill input) ∧
      (bufferSetData sizeMod buffer input).2 = true := by
  have appended := @Buffer.Represents.append sizeMod (bufferClear buffer) input _ represents.clear
    (by simpa [Buffer.length] using fits)
  rw [BoundedQueue.push_fill_nil] at appended
  exact appended

/-- A move whose sums do not wrap always succeeds: the destination gets what its limit allows and
the source is emptied. -/
theorem Buffer.Represents.move {sizeMod : Nat} {dest : Buffer} {other : BoundedQueue UInt8}
    (represents : buffer.Represents queue) (target : dest.Represents other)
    (fits : buffer.length + 1024 < sizeMod) :
    ∃ filled, bufferMove sizeMod buffer dest = (bufferClear buffer, filled, true) ∧
      filled.Represents (other.fill queue.items) := by
  obtain ⟨filled, ok⟩ := @Buffer.Represents.setData dest other sizeMod buffer.data target fits
  rw [represents.data] at filled
  refine ⟨_, ?_, filled⟩
  unfold bufferMove
  rw [represents.data] at ok ⊢
  unfold bufferSetData at ok ⊢
  generalize bufferAppend sizeMod (bufferClear dest) queue.items = outcome at ok ⊢
  obtain ⟨moved, result⟩ := outcome
  obtain rfl : result = true := ok
  rfl

end Operations

/-! ## Whole sequences of operations -/

section Sequences

variable {ι : Type*} [DecidableEq ι]

/-- An operation on a family of buffers.  When a buffer is moved into itself, the source which
`buffer_move` reads is the destination which it has just cleared. -/
def bufferStep (sizeMod : Nat) (bank : Bank ι Buffer) : QueueOp ι UInt8 → Bank ι Buffer
  | .append index input => bank.report index (bufferAppend sizeMod (bank.cells index) input)
  | .setData index input => bank.report index (bufferSetData sizeMod (bank.cells index) input)
  | .clear index => bank.put index (bufferClear (bank.cells index))
  | .removeData index count => bank.put index (bufferRemoveData (bank.cells index) count)
  | .move source dest =>
      let cleared := bank.put dest (bufferClear (bank.cells dest))
      match bufferMove sizeMod (cleared.cells source) (cleared.cells dest) with
      | (emptied, filled, result) => (cleared.report dest (filled, result)).put source emptied

/-- The operation is within the range of `size_t`, and removes no more than there is. -/
def Bank.Within (sizeMod : Nat) (bank : Bank ι Buffer) : QueueOp ι UInt8 → Prop
  | .append index input => (bank.cells index).length + input.length + 1024 < sizeMod
  | .setData _ input => input.length + 1024 < sizeMod
  | .clear _ => True
  | .removeData index count => count ≤ (bank.cells index).length
  | .move source _ => (bank.cells source).length + 1024 < sizeMod

instance decidableBankWithin (sizeMod : Nat) (bank : Bank ι Buffer) :
    ∀ op : QueueOp ι UInt8, Decidable (bank.Within sizeMod op)
  | .append _ _ | .setData _ _ | .move _ _ => Nat.decLt _ _
  | .clear _ => isTrue trivial
  | .removeData _ _ => Nat.decLe _ _

/-- Every operation on the buffers is the operation on the queues which they represent. -/
theorem bufferStep_related {sizeMod : Nat} {bank : Bank ι Buffer}
    {queues : Bank ι (BoundedQueue UInt8)} (related : Bank.Related Buffer.Represents bank queues)
    {op : QueueOp ι UInt8} (within : bank.Within sizeMod op) :
    Bank.Related Buffer.Represents (bufferStep sizeMod bank op) (queues.queueStep op) := by
  cases op with
  | append index input =>
      obtain ⟨represents, result⟩ := (related.cells index).append within
      exact related.report index represents result
  | setData index input =>
      obtain ⟨represents, result⟩ := (related.cells index).setData within
      exact related.report index represents result
  | clear index => exact related.put index (related.cells index).clear
  | removeData index count => exact related.put index ((related.cells index).remove count)
  | move source dest =>
      have cleared := related.put dest (related.cells dest).clear
      have fits : ((bank.put dest (bufferClear (bank.cells dest))).cells source).length + 1024 <
          sizeMod := by
        have within : (bank.cells source).length + 1024 < sizeMod := within
        simp only [Bank.put, Function.update_apply]
        split
        · simp only [Buffer.length, bufferClear_data, List.length_nil]
          omega
        · exact within
      obtain ⟨filled, moved, represents⟩ :=
        (cleared.cells source).move (cleared.cells dest) fits
      have result := (@Bank.Related.report _ _ _ _ _ _ _ cleared dest (filled, true) (_, true)
        represents rfl).put source (cleared.cells source).clear
      simp only [bufferStep, moved]
      rcases eq_or_ne source dest with rfl | apart
      · simpa [Bank.queueStep, Bank.put, Bank.report, BoundedQueue.fill] using result
      · simpa [Bank.queueStep, Bank.put, Bank.report, apart, BoundedQueue.fill] using result

/-- Every sequence of operations within the range of `size_t` keeps the buffers and the queues
related. -/
theorem foldl_bufferStep_related {sizeMod : Nat} {bank : Bank ι Buffer}
    {queues : Bank ι (BoundedQueue UInt8)} (related : Bank.Related Buffer.Represents bank queues)
    {ops : List (QueueOp ι UInt8)}
    (within : Execution.Guarded (fun bank op => some (bufferStep sizeMod bank op))
      (Bank.Within sizeMod) bank ops) :
    Bank.Related Buffer.Represents (ops.foldl (bufferStep sizeMod) bank)
      (ops.foldl Bank.queueStep queues) := by
  induction ops generalizing bank queues with
  | nil => exact related
  | cons op ops ih => exact ih (bufferStep_related related within.1) (within.2 _ rfl)

theorem foldl_queueStep_limit {α : Type*} (queues : Bank ι (BoundedQueue α))
    (ops : List (QueueOp ι α)) (index : ι) :
    ((ops.foldl Bank.queueStep queues).cells index).limit = (queues.cells index).limit := by
  induction ops generalizing queues with
  | nil => rfl
  | cons op ops ih => exact (ih (queues.queueStep op)).trans (queues.queueStep_limit op index)

/-- A family of created buffers. -/
def createdBuffers (limits : ι → Nat) : Bank ι Buffer where
  cells := fun index => bufferCreate (limits index)
  results := []

/-- A family of empty queues. -/
def emptyQueues (limits : ι → Nat) : Bank ι (BoundedQueue UInt8) where
  cells := fun index => BoundedQueue.empty UInt8 (limits index)
  results := []

/-- Created buffers are used as bounded queues by any sequence of operations within the range of
`size_t`: they hold what the queues hold and return what the queues return, their allocations cover
their bytes and stay within the limits, and a refused append changes nothing. -/
theorem buffers_refine_queues (sizeMod : Nat) (limits : ι → Nat) (ops : List (QueueOp ι UInt8))
    (within : Execution.Guarded (fun bank op => some (bufferStep sizeMod bank op))
      (Bank.Within sizeMod) (createdBuffers limits) ops) :
    let buffers := ops.foldl (bufferStep sizeMod) (createdBuffers limits)
    let queues := ops.foldl Bank.queueStep (emptyQueues limits)
    buffers.results = queues.results ∧
      ∀ index, (buffers.cells index).data = (queues.cells index).items ∧
        (queues.cells index).limit = limits index ∧
        (buffers.cells index).length ≤ (buffers.cells index).capacity ∧
        (0 < limits index → (buffers.cells index).capacity ≤ limits index) ∧
        ∀ input, (bufferAppend sizeMod (buffers.cells index) input).2 = false →
          (bufferAppend sizeMod (buffers.cells index) input).1 = buffers.cells index := by
  intro buffers queues
  have start : Bank.Related Buffer.Represents (createdBuffers limits) (emptyQueues limits) :=
    ⟨fun index => bufferCreate_represents (limits index), rfl⟩
  have related : Bank.Related Buffer.Represents buffers queues :=
    foldl_bufferStep_related start within
  refine ⟨related.results, fun index => ?_⟩
  have limit : (queues.cells index).limit = limits index := foldl_queueStep_limit _ ops index
  obtain ⟨data, -, allocated, limited⟩ := related.cells index
  rw [limit] at limited
  exact ⟨data, limit, allocated, limited, fun input refused => bufferAppend_refused refused⟩

/-- An unlimited buffer is filled and moved into one of three bytes, which then refuses more. -/
theorem buffers_refine_queues_limited :
    let limits : Bool → Nat := fun limited => if limited then 3 else 0
    let ops : List (QueueOp Bool UInt8) := [.append false [1, 2, 3, 4, 5], .removeData false 1,
      .move false true, .append true [6], .setData false [7, 8], .clear true, .append true [9]]
    let buffers := ops.foldl (bufferStep (2 ^ 32)) (createdBuffers limits)
    buffers.results = [true, true, false, true, true] ∧
      (buffers.cells false).data = [7, 8] ∧ (buffers.cells true).data = [9] ∧
      (buffers.cells true).capacity ≤ 3 := by
  intro limits ops buffers
  have within : Execution.Guarded (fun bank op => some (bufferStep (2 ^ 32) bank op))
      (Bank.Within (2 ^ 32)) (createdBuffers limits) ops := by
    decide
  obtain ⟨results, cells⟩ := buffers_refine_queues (2 ^ 32) limits ops within
  exact ⟨results.trans (by decide), (cells false).1.trans (by decide),
    (cells true).1.trans (by decide), (cells true).2.2.2.1 (by decide)⟩

end Sequences

end Jabsocket
