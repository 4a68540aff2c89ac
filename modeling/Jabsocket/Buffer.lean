import Mathlib.Algebra.Group.Int.Defs
import Mathlib.Algebra.Group.Nat.Defs
import Mathlib.Data.List.Basic
import Mathlib.Tactic.Common

/-!
# Byte buffers

The buffers of `util.c`.  A `Buffer` holds the bytes below `length` and the size of the
allocation; what memory holds behind those bytes is not part of the buffer and is supplied by
a `Heap` where the code reads past the end.  `size_t` sums are taken modulo `sizeMod`, and
`sizeMod = 0` stands for sums which never wrap.
-/

namespace Jabsocket

/-! ## `size_t` and byte order -/

/-- `size_t` addition. -/
def sizeAdd (sizeMod left right : Nat) : Nat := (left + right) % sizeMod

/-- `size_t` subtraction. -/
def sizeSub (sizeMod left right : Nat) : Nat := (left + sizeMod - right) % sizeMod

@[simp] theorem sizeAdd_zero_mod (left right : Nat) : sizeAdd 0 left right = left + right := by
  simp [sizeAdd]

theorem sizeAdd_of_lt {sizeMod left right : Nat} (fits : left + right < sizeMod) :
    sizeAdd sizeMod left right = left + right :=
  Nat.mod_eq_of_lt fits

/-- `size_t` subtraction of a smaller number. -/
theorem sizeSub_of_le {sizeMod left right : Nat} (small : left < sizeMod) (le : right ≤ left) :
    sizeSub sizeMod left right = left - right := by
  rw [sizeSub, show left + sizeMod - right = left - right + sizeMod by omega, Nat.add_mod_right]
  exact Nat.mod_eq_of_lt (by omega)

/-- A `uint16_t` loaded by a little-endian host. -/
def loadU16 (low high : UInt8) : Nat := low.toNat + 256 * high.toNat

/-- A `uint32_t` loaded by a little-endian host. -/
def loadU32 (b₀ b₁ b₂ b₃ : UInt8) : Nat :=
  b₀.toNat + 256 * b₁.toNat + 65536 * b₂.toNat + 16777216 * b₃.toNat

/-- The bytes of a `uint16_t` on a little-endian host. -/
def storeU16 (value : Nat) : List UInt8 :=
  [UInt8.ofNat value, UInt8.ofNat (value / 256)]

/-- The bytes of a `uint32_t` on a little-endian host. -/
def storeU32 (value : Nat) : List UInt8 :=
  [UInt8.ofNat value, UInt8.ofNat (value / 256), UInt8.ofNat (value / 65536),
    UInt8.ofNat (value / 16777216)]

/-- `htons`: the argument is converted to `uint16_t` and its bytes are swapped. -/
def htons (value : Nat) : Nat := value % 256 * 256 + value / 256 % 256

/-- `ntohs` swaps the bytes of a `uint16_t`. -/
def ntohs (value : Nat) : Nat := htons value

/-- `ntohl` reverses the bytes of a `uint32_t`. -/
def ntohl (value : Nat) : Nat :=
  value % 256 * 16777216 + value / 256 % 256 * 65536 + value / 65536 % 256 * 256 +
    value / 16777216 % 256

/-- The `int` with the given 32 bits as a `size_t`: where `size_t` is wider, a negative value is
extended with its sign. -/
def intToSize (sizeMod value : Nat) : Nat :=
  if value < 2 ^ 31 then value else value + (sizeMod - 2 ^ 32)

theorem intToSize_of_lt (sizeMod : Nat) {value : Nat} (small : value < 2 ^ 31) :
    intToSize sizeMod value = value :=
  if_pos small

@[simp] theorem intToSize_zero_mod (value : Nat) : intToSize 0 value = value := by
  simp [intToSize]

theorem intToSize_lt {sizeMod value : Nat} (large : 2 ^ 32 ≤ sizeMod) (bits : value < 2 ^ 32) :
    intToSize sizeMod value < sizeMod := by
  unfold intToSize
  split <;> omega

theorem ntohs_loadU16 (high low : UInt8) :
    ntohs (loadU16 high low) = 256 * high.toNat + low.toNat := by
  have := high.toNat_lt
  have := low.toNat_lt
  simp only [ntohs, htons, loadU16]
  omega

theorem ntohl_loadU32 (b₀ b₁ b₂ b₃ : UInt8) :
    ntohl (loadU32 b₀ b₁ b₂ b₃) =
      16777216 * b₀.toNat + 65536 * b₁.toNat + 256 * b₂.toNat + b₃.toNat := by
  have := b₀.toNat_lt
  have := b₁.toNat_lt
  have := b₂.toNat_lt
  have := b₃.toNat_lt
  simp only [ntohl, loadU32]
  omega

/-! ## Memory behind a buffer -/

/-- What memory holds behind a block with the given bytes. -/
abbrev Heap := List UInt8 → Nat → UInt8

/-- Read one byte, from the heap when the index is past the end. -/
def readByte (heap : Heap) (data : List UInt8) (index : Nat) : UInt8 :=
  (data[index]?).getD (heap data index)

/-- Read `count` bytes starting at `offset`. -/
def readBytes (heap : Heap) (data : List UInt8) (offset count : Nat) : List UInt8 :=
  (List.range count).map fun index => readByte heap data (offset + index)

@[simp] theorem length_readBytes (heap : Heap) (data : List UInt8) (offset count : Nat) :
    (readBytes heap data offset count).length = count := by
  simp [readBytes]

theorem readByte_of_lt (heap : Heap) {data : List UInt8} {index : Nat}
    (inside : index < data.length) : readByte heap data index = data[index] := by
  simp [readByte, inside]

/-- Reads inside the block are the bytes of the block. -/
theorem readBytes_of_le (heap : Heap) {data : List UInt8} {offset count : Nat}
    (inside : offset + count ≤ data.length) :
    readBytes heap data offset count = (data.drop offset).take count := by
  apply List.ext_getElem
  · simp only [length_readBytes, List.length_take, List.length_drop]
    omega
  · intro index left right
    have bound : index < count := by simpa using left
    simp only [readBytes, List.getElem_map, List.getElem_range, List.getElem_take,
      List.getElem_drop]
    exact readByte_of_lt heap (by omega)

/-! ## `buffer_t` -/

/-- A dynamic data buffer. -/
structure Buffer where
  /-- The bytes held, `length` of them. -/
  data : List UInt8
  /-- Size of the allocation. -/
  capacity : Nat
  /-- Limit on the length; zero means unlimited. -/
  maxLength : Nat
  deriving DecidableEq, Repr

/-- Number of bytes held. -/
def Buffer.length (buffer : Buffer) : Nat := buffer.data.length

/-- `INIT_BUFFER_SIZE`. -/
def initBufferSize : Nat := 128

/-- `buffer_create`, with both allocations succeeding. -/
def bufferCreate (maxLength : Nat) : Buffer where
  data := []
  capacity := if 0 < maxLength ∧ maxLength < initBufferSize then maxLength else initBufferSize
  maxLength := maxLength

/-- `buffer_clear`. -/
def bufferClear (buffer : Buffer) : Buffer := { buffer with data := [] }

/-- `buffer_append`, with the reallocation succeeding; the flag is its result. -/
def bufferAppend (sizeMod : Nat) (buffer : Buffer) (input : List UInt8) : Buffer × Bool :=
  if input.length = 0 then
    (buffer, true)
  else if buffer.maxLength = 0 then
    let needed := sizeAdd sizeMod buffer.length input.length
    let capacity := if buffer.capacity < needed then sizeAdd sizeMod needed 1024
      else buffer.capacity
    let length := if capacity < needed then sizeSub sizeMod capacity buffer.length
      else input.length
    ({ buffer with data := buffer.data ++ input.take length, capacity }, true)
  else
    let length :=
      if buffer.maxLength < sizeAdd sizeMod buffer.length input.length then
        sizeSub sizeMod buffer.maxLength buffer.length
      else input.length
    if length = 0 then
      (buffer, false)
    else
      let needed := sizeAdd sizeMod buffer.length length
      let capacity :=
        if buffer.capacity < needed then
          let grown := sizeAdd sizeMod needed 1024
          if buffer.maxLength < grown then buffer.maxLength else grown
        else buffer.capacity
      ({ buffer with data := buffer.data ++ input.take length, capacity }, true)

/-- `buffer_set_data`. -/
def bufferSetData (sizeMod : Nat) (buffer : Buffer) (input : List UInt8) : Buffer × Bool :=
  bufferAppend sizeMod (bufferClear buffer) input

/-- `realloc` returns no memory for a size of zero and for one beyond half of the range of
`size_t`. -/
def reallocFails (sizeMod size : Nat) : Bool :=
  sizeMod != 0 && (size == 0 || decide (sizeMod / 2 ≤ size))

/-- The control flow of `buffer_set_data` for an input of `count` bytes: how many are copied and the
new capacity, or `none` when it fails. -/
def bufferSetPlan (sizeMod : Nat) (buffer : Buffer) (count : Nat) : Option (Nat × Nat) :=
  if count = 0 then
    some (0, buffer.capacity)
  else if buffer.maxLength = 0 then
    if buffer.capacity < count then
      let capacity := sizeAdd sizeMod count 1024
      if reallocFails sizeMod capacity then none
      else some (if capacity < count then capacity else count, capacity)
    else some (count, buffer.capacity)
  else
    let length := if buffer.maxLength < count then buffer.maxLength else count
    if buffer.capacity < length then
      let grown := sizeAdd sizeMod length 1024
      let capacity := if buffer.maxLength < grown then buffer.maxLength else grown
      if reallocFails sizeMod capacity then none else some (length, capacity)
    else some (length, buffer.capacity)

/-- `buffer_set_data` of `count` bytes of memory, of which no more are read than are copied. -/
def bufferSetMemory (sizeMod : Nat) (buffer : Buffer) (read : Nat → UInt8) (count : Nat) :
    Buffer × Bool :=
  match bufferSetPlan sizeMod buffer count with
  | none => (bufferClear buffer, false)
  | some (length, capacity) =>
      ({ buffer with data := (List.range length).map read, capacity }, true)

/-- What a cleared buffer keeps of an input. -/
def Buffer.clip (buffer : Buffer) (input : List UInt8) : List UInt8 :=
  if buffer.maxLength = 0 then input else input.take buffer.maxLength

/-- `buffer_remove_data`, for a count which does not exceed the length. -/
def bufferRemoveData (buffer : Buffer) (count : Nat) : Buffer :=
  { buffer with data := buffer.data.drop count }

/-- `buffer_move`: source, destination and result. -/
def bufferMove (sizeMod : Nat) (source dest : Buffer) : Buffer × Buffer × Bool :=
  match bufferAppend sizeMod (bufferClear dest) source.data with
  | (dest, true) => (bufferClear source, dest, true)
  | (dest, false) => (source, dest, false)

theorem Buffer.clip_of_unlimited {buffer : Buffer} (unlimited : buffer.maxLength = 0)
    (input : List UInt8) : buffer.clip input = input :=
  if_pos unlimited

theorem Buffer.clip_of_le {buffer : Buffer} {input : List UInt8}
    (fits : buffer.maxLength = 0 ∨ input.length ≤ buffer.maxLength) :
    buffer.clip input = input := by
  unfold Buffer.clip
  split
  · rfl
  · rename_i limited
    exact List.take_of_length_le (fits.resolve_left limited)

@[simp] theorem bufferCreate_data (maxLength : Nat) : (bufferCreate maxLength).data = [] := rfl

@[simp] theorem bufferCreate_maxLength (maxLength : Nat) :
    (bufferCreate maxLength).maxLength = maxLength := rfl

@[simp] theorem bufferClear_data (buffer : Buffer) : (bufferClear buffer).data = [] := rfl

@[simp] theorem bufferClear_maxLength (buffer : Buffer) :
    (bufferClear buffer).maxLength = buffer.maxLength := rfl

@[simp] theorem bufferRemoveData_data (buffer : Buffer) (count : Nat) :
    (bufferRemoveData buffer count).data = buffer.data.drop count := rfl

@[simp] theorem bufferRemoveData_maxLength (buffer : Buffer) (count : Nat) :
    (bufferRemoveData buffer count).maxLength = buffer.maxLength := rfl

@[simp] theorem bufferAppend_maxLength (sizeMod : Nat) (buffer : Buffer) (input : List UInt8) :
    (bufferAppend sizeMod buffer input).1.maxLength = buffer.maxLength := by
  unfold bufferAppend
  dsimp only
  repeat' split
  all_goals rfl

/-- An unlimited buffer takes every append whose sums do not wrap. -/
theorem bufferAppend_unlimited {sizeMod : Nat} (buffer : Buffer) (input : List UInt8)
    (unlimited : buffer.maxLength = 0)
    (fits : sizeMod = 0 ∨ buffer.length + input.length + 1024 < sizeMod) :
    (bufferAppend sizeMod buffer input).1.data = buffer.data ++ input ∧
      (bufferAppend sizeMod buffer input).2 = true := by
  by_cases empty : input.length = 0
  · simp [bufferAppend, List.length_eq_zero_iff.mp empty]
  have needed : sizeAdd sizeMod buffer.length input.length = buffer.length + input.length := by
    obtain rfl | small := fits
    · simp
    · exact sizeAdd_of_lt (by omega)
  have grown : sizeAdd sizeMod (buffer.length + input.length) 1024 =
      buffer.length + input.length + 1024 := by
    obtain rfl | small := fits
    · simp
    · exact sizeAdd_of_lt small
  have room : ¬ (if buffer.capacity < buffer.length + input.length then
      buffer.length + input.length + 1024 else buffer.capacity) <
        buffer.length + input.length := by
    split <;> omega
  simp [bufferAppend, empty, unlimited, needed, grown, room]

@[simp] theorem bufferAppend_data_unlimited {buffer : Buffer} (input : List UInt8)
    (unlimited : buffer.maxLength = 0) :
    (bufferAppend 0 buffer input).1.data = buffer.data ++ input :=
  (bufferAppend_unlimited _ _ unlimited (Or.inl rfl)).1

@[simp] theorem bufferAppend_ok_unlimited {buffer : Buffer} (input : List UInt8)
    (unlimited : buffer.maxLength = 0) : (bufferAppend 0 buffer input).2 = true :=
  (bufferAppend_unlimited _ _ unlimited (Or.inl rfl)).2

/-- A limited buffer takes what it has room for; only a full one refuses. -/
theorem bufferAppend_limited {sizeMod : Nat} (buffer : Buffer) {input : List UInt8}
    (limited : buffer.maxLength ≠ 0) (nonempty : input ≠ [])
    (fits : sizeMod = 0 ∨
      buffer.length + input.length < sizeMod ∧ buffer.length ≤ buffer.maxLength) :
    (bufferAppend sizeMod buffer input).1.data =
        buffer.data ++ input.take (buffer.maxLength - buffer.length) ∧
      (bufferAppend sizeMod buffer input).2 = decide (buffer.length < buffer.maxLength) := by
  have positive : 0 < input.length := List.length_pos_of_ne_nil nonempty
  have needed : sizeAdd sizeMod buffer.length input.length = buffer.length + input.length := by
    obtain rfl | ⟨small, -⟩ := fits
    · simp
    · exact sizeAdd_of_lt small
  obtain ⟨count, count_eq, taken, free_iff⟩ : ∃ count,
      (if buffer.maxLength < buffer.length + input.length then
        sizeSub sizeMod buffer.maxLength buffer.length else input.length) = count ∧
      input.take count = input.take (buffer.maxLength - buffer.length) ∧
      (count ≠ 0 ↔ buffer.length < buffer.maxLength) := by
    refine ⟨_, rfl, ?_⟩
    split
    · rename_i cut
      have room : sizeSub sizeMod buffer.maxLength buffer.length =
          buffer.maxLength - buffer.length := by
        obtain rfl | ⟨small, within⟩ := fits
        · simp [sizeSub]
        · exact sizeSub_of_le (by omega) within
      rw [room]
      exact ⟨rfl, by omega⟩
    · rw [List.take_length, List.take_of_length_le (by omega)]
      exact ⟨rfl, by omega⟩
  simp only [bufferAppend, if_neg (Nat.ne_of_gt positive), if_neg limited, needed, count_eq]
  by_cases full : count = 0
  · have no_room : ¬ buffer.length < buffer.maxLength := by simp [← free_iff, full]
    simp [full, no_room, ← taken]
  · simp [full, free_iff.mp full, taken]

@[simp] theorem bufferSetData_maxLength (sizeMod : Nat) (buffer : Buffer) (input : List UInt8) :
    (bufferSetData sizeMod buffer input).1.maxLength = buffer.maxLength := by
  simp [bufferSetData]

@[simp] theorem reallocFails_zero_mod (size : Nat) : reallocFails 0 size = false := rfl

/-- Moderate sizes are allocated. -/
theorem reallocFails_of_lt {sizeMod size : Nat} (positive : 0 < size)
    (small : size < sizeMod / 2) : reallocFails sizeMod size = false := by
  have nonzero : size ≠ 0 := by omega
  simp [reallocFails, nonzero, small]

/-- For fewer than 2^31 bytes the width of `size_t` does not matter. -/
theorem bufferSetPlan_of_lt {sizeMod : Nat} (large : 2 ^ 33 ≤ sizeMod) (buffer : Buffer)
    {count : Nat} (small : count < 2 ^ 31) :
    bufferSetPlan sizeMod buffer count = bufferSetPlan 0 buffer count := by
  have grown (length : Nat) (le : length ≤ count) :
      sizeAdd sizeMod length 1024 = length + 1024 := sizeAdd_of_lt (by omega)
  by_cases empty : count = 0
  · simp [bufferSetPlan, empty]
  by_cases unlimited : buffer.maxLength = 0
  · have allocated := reallocFails_of_lt (show 0 < count + 1024 by omega)
      (show count + 1024 < sizeMod / 2 by omega)
    simp [bufferSetPlan, empty, unlimited, grown count (Nat.le_refl _), allocated]
  · have length_le : (if buffer.maxLength < count then buffer.maxLength else count) ≤ count := by
      split <;> omega
    simp only [bufferSetPlan, empty, unlimited, if_false, grown _ length_le, sizeAdd_zero_mod]
    generalize (if buffer.maxLength < count then buffer.maxLength else count) = length at length_le
    have allocated : reallocFails sizeMod
        (if buffer.maxLength < length + 1024 then buffer.maxLength else length + 1024) = false := by
      refine reallocFails_of_lt ?_ ?_ <;> split <;> omega
    rw [allocated, reallocFails_zero_mod]

/-- A negative length is refused unless its allocation wraps to less than 1024 bytes. -/
theorem bufferSetPlan_of_negative {sizeMod : Nat} (large : 2 ^ 33 ≤ sizeMod) {buffer : Buffer}
    (unlimited : buffer.maxLength = 0) {value : Nat} (negative : 2 ^ 31 ≤ value)
    (beyond : value + 1024 ≤ 2 ^ 32) (small : buffer.capacity < sizeMod - 2 ^ 32 + 2 ^ 31) :
    bufferSetPlan sizeMod buffer (intToSize sizeMod value) = none := by
  have extended : intToSize sizeMod value = value + (sizeMod - 2 ^ 32) := if_neg (by omega)
  have nonzero : value + (sizeMod - 2 ^ 32) ≠ 0 := by omega
  have grows : buffer.capacity < value + (sizeMod - 2 ^ 32) := by omega
  have refused :
      reallocFails sizeMod (sizeAdd sizeMod (value + (sizeMod - 2 ^ 32)) 1024) = true := by
    have present : (sizeMod != 0) = true := by simp; omega
    by_cases full : value + 1024 = 2 ^ 32
    · have wrapped : sizeAdd sizeMod (value + (sizeMod - 2 ^ 32)) 1024 = 0 := by
        rw [sizeAdd, show value + (sizeMod - 2 ^ 32) + 1024 = sizeMod by omega, Nat.mod_self]
      rw [reallocFails, wrapped, present]
      rfl
    · have exact_sum : sizeAdd sizeMod (value + (sizeMod - 2 ^ 32)) 1024 =
          value + (sizeMod - 2 ^ 32) + 1024 := sizeAdd_of_lt (by omega)
      have half : sizeMod / 2 ≤ value + (sizeMod - 2 ^ 32) + 1024 := by omega
      rw [reallocFails, exact_sum, present, decide_eq_true half, Bool.or_true, Bool.and_self]
  simp only [bufferSetPlan, extended, nonzero, unlimited, grows, refused, if_true, if_false]

/-- A negative length whose allocation wraps is copied as far as the allocation goes. -/
theorem bufferSetPlan_of_wrapped {sizeMod : Nat} (large : 2 ^ 32 ≤ sizeMod) {buffer : Buffer}
    (unlimited : buffer.maxLength = 0) {value : Nat} (bits : value < 2 ^ 32)
    (wraps : 2 ^ 32 < value + 1024) (small : buffer.capacity < value + (sizeMod - 2 ^ 32)) :
    bufferSetPlan sizeMod buffer (intToSize sizeMod value) =
      some (value + 1024 - 2 ^ 32, value + 1024 - 2 ^ 32) := by
  have extended : intToSize sizeMod value = value + (sizeMod - 2 ^ 32) := if_neg (by omega)
  have nonzero : value + (sizeMod - 2 ^ 32) ≠ 0 := by omega
  have wrapped : sizeAdd sizeMod (value + (sizeMod - 2 ^ 32)) 1024 = value + 1024 - 2 ^ 32 := by
    rw [sizeAdd, Nat.mod_eq_sub_mod (by omega), Nat.mod_eq_of_lt (by omega)]
    omega
  have allocated : reallocFails sizeMod (value + 1024 - 2 ^ 32) = false := by
    have positive : value + 1024 - 2 ^ 32 ≠ 0 := by omega
    have below : ¬ sizeMod / 2 ≤ value + 1024 - 2 ^ 32 := by omega
    rw [reallocFails, decide_eq_false below, Bool.or_false, beq_eq_false_iff_ne.mpr positive,
      Bool.and_false]
  have cut : value + 1024 - 2 ^ 32 < value + (sizeMod - 2 ^ 32) := by omega
  simp only [bufferSetPlan, extended, nonzero, unlimited, small, wrapped, allocated, cut, if_true,
    if_false, Bool.false_eq_true]

/-- A copy into an unlimited buffer is complete when the buffer is large enough or can grow, which
it cannot to half of the range of `size_t`. -/
theorem bufferSetPlan_complete {sizeMod : Nat} (large : 2 ^ 32 ≤ sizeMod) {buffer : Buffer}
    (unlimited : buffer.maxLength = 0) {count copied capacity : Nat} (small : count < sizeMod)
    (plan : bufferSetPlan sizeMod buffer count = some (copied, capacity)) :
    (copied = count → count ≤ buffer.capacity ∨ count + 1024 < sizeMod / 2) ∧
      (count ≤ buffer.capacity ∨ count + 1024 < sizeMod → copied = count) := by
  unfold bufferSetPlan at plan
  by_cases empty : count = 0
  · rw [if_pos empty] at plan
    obtain ⟨rfl, -⟩ := Prod.mk.inj (Option.some.inj plan)
    exact ⟨fun _ => Or.inl (by omega), fun _ => empty.symm⟩
  rw [if_neg empty, if_pos unlimited] at plan
  by_cases grows : buffer.capacity < count
  · rw [if_pos grows] at plan
    dsimp only at plan
    by_cases fits : count + 1024 < sizeMod
    · rw [sizeAdd_of_lt fits, if_neg (show ¬ count + 1024 < count by omega)] at plan
      split_ifs at plan with refused
      obtain ⟨rfl, -⟩ := Prod.mk.inj (Option.some.inj plan)
      have allocated : ¬ sizeMod / 2 ≤ count + 1024 := fun half => by
        have present : (sizeMod != 0) = true := bne_iff_ne.mpr (by omega)
        rw [reallocFails, present, decide_eq_true half, Bool.or_true, Bool.and_self] at refused
        exact refused rfl
      exact ⟨fun _ => Or.inr (by omega), fun _ => rfl⟩
    · have wrapped : sizeAdd sizeMod count 1024 = count + 1024 - sizeMod := by
        rw [sizeAdd, Nat.mod_eq_sub_mod (by omega), Nat.mod_eq_of_lt (by omega)]
      rw [wrapped, if_pos (show count + 1024 - sizeMod < count by omega)] at plan
      split_ifs at plan
      obtain ⟨rfl, -⟩ := Prod.mk.inj (Option.some.inj plan)
      exact ⟨fun _ => by omega, fun _ => by omega⟩
  · rw [if_neg grows] at plan
    obtain ⟨rfl, -⟩ := Prod.mk.inj (Option.some.inj plan)
    exact ⟨fun _ => Or.inl (by omega), fun _ => rfl⟩

theorem bufferSetMemory_of_lt {sizeMod : Nat} (large : 2 ^ 33 ≤ sizeMod) (buffer : Buffer)
    (read : Nat → UInt8) {count : Nat} (small : count < 2 ^ 31) :
    bufferSetMemory sizeMod buffer read count = bufferSetMemory 0 buffer read count := by
  rw [bufferSetMemory, bufferSetMemory, bufferSetPlan_of_lt large buffer small]

/-- When no sum wraps, copying from memory is copying the bytes which are there. -/
theorem bufferSetMemory_zero (buffer : Buffer) (read : Nat → UInt8) (count : Nat) :
    bufferSetMemory 0 buffer read count =
      bufferSetData 0 buffer ((List.range count).map read) := by
  have emptied : (bufferClear buffer).length = 0 := rfl
  have reserved : (bufferClear buffer).capacity = buffer.capacity := rfl
  by_cases empty : count = 0
  · simp [bufferSetMemory, bufferSetPlan, bufferSetData, bufferAppend, empty, bufferClear]
  by_cases unlimited : buffer.maxLength = 0
  · have whole : ((List.range count).map read).take count = (List.range count).map read :=
      List.take_of_length_le (by simp)
    have room : ¬ count + 1024 < count := by omega
    simp only [bufferSetMemory, bufferSetPlan, bufferSetData, bufferAppend, empty, emptied,
      reserved, unlimited, if_false, if_true, List.length_map, List.length_range,
      bufferClear_maxLength, sizeAdd_zero_mod, Nat.zero_add, reallocFails_zero_mod,
      Bool.false_eq_true, room]
    by_cases grows : buffer.capacity < count
    · simp only [grows, if_true, room, if_false, whole]
      rfl
    · simp only [grows, if_false, whole]
      rfl
  · have room : sizeSub 0 buffer.maxLength 0 = buffer.maxLength := by simp [sizeSub]
    have taken (length : Nat) (le : length ≤ count) :
        ((List.range count).map read).take length = (List.range length).map read := by
      rw [← List.map_take, List.take_range, Nat.min_eq_left le]
    have length_le : (if buffer.maxLength < count then buffer.maxLength else count) ≤ count := by
      split <;> omega
    have positive : (if buffer.maxLength < count then buffer.maxLength else count) ≠ 0 := by
      split <;> omega
    simp only [bufferSetMemory, bufferSetPlan, bufferSetData, bufferAppend, empty, emptied,
      reserved, unlimited, if_false, List.length_map, List.length_range, bufferClear_maxLength,
      sizeAdd_zero_mod, Nat.zero_add, room, positive, taken _ length_le, reallocFails_zero_mod,
      Bool.false_eq_true]
    generalize (if buffer.maxLength < count then buffer.maxLength else count) = length
    by_cases grows : buffer.capacity < length
    · simp only [grows, if_true]
      rfl
    · simp only [grows, if_false]
      rfl

@[simp] theorem bufferSetMemory_maxLength (sizeMod : Nat) (buffer : Buffer) (read : Nat → UInt8)
    (count : Nat) : (bufferSetMemory sizeMod buffer read count).1.maxLength = buffer.maxLength := by
  unfold bufferSetMemory
  split <;> rfl

/-- Moving into an unlimited buffer transfers the whole content and empties the source. -/
theorem bufferMove_unlimited (source : Buffer) {dest : Buffer} (unlimited : dest.maxLength = 0) :
    (bufferMove 0 source dest).1 = bufferClear source ∧
      (bufferMove 0 source dest).2.1.data = source.data ∧
      (bufferMove 0 source dest).2.1.maxLength = 0 ∧
      (bufferMove 0 source dest).2.2 = true := by
  have cleared : (bufferClear dest).maxLength = 0 := unlimited
  have data := bufferAppend_data_unlimited source.data cleared
  have ok := bufferAppend_ok_unlimited source.data cleared
  have limit := bufferAppend_maxLength 0 (bufferClear dest) source.data
  unfold bufferMove
  generalize bufferAppend 0 (bufferClear dest) source.data = outcome at data ok limit
  obtain ⟨moved, result⟩ := outcome
  obtain rfl : result = true := ok
  exact ⟨rfl, by simpa using data, by simpa [unlimited] using limit, rfl⟩

/-! ## `unmask` -/

/-- The loop of `unmask`, with its mask index. -/
def unmaskFrom (mask : Nat → UInt8) : Nat → List UInt8 → List UInt8
  | _, [] => []
  | index, byte :: rest =>
      (byte ^^^ mask index) :: unmaskFrom mask (if index + 1 = 4 then 0 else index + 1) rest

/-- `unmask`: the mask key is given by its four bytes. -/
def unmask (data : List UInt8) (mask : Nat → UInt8) : List UInt8 := unmaskFrom mask 0 data

/-- Only the four bytes of the mask key are read. -/
theorem unmaskFrom_congr {mask other : Nat → UInt8} (agree : ∀ index < 4, mask index = other index)
    {index : Nat} (bound : index < 4) (data : List UInt8) :
    unmaskFrom mask index data = unmaskFrom other index data := by
  induction data generalizing index with
  | nil => rfl
  | cons byte rest ih =>
      have next_bound : (if index + 1 = 4 then 0 else index + 1) < 4 := by split <;> omega
      simp only [unmaskFrom]
      rw [agree index bound, ih next_bound]

@[simp] theorem length_unmaskFrom (mask : Nat → UInt8) (index : Nat) (data : List UInt8) :
    (unmaskFrom mask index data).length = data.length := by
  induction data generalizing index with
  | nil => rfl
  | cons byte rest ih => simp [unmaskFrom, ih]

@[simp] theorem length_unmask (data : List UInt8) (mask : Nat → UInt8) :
    (unmask data mask).length = data.length :=
  length_unmaskFrom mask 0 data

theorem unmaskFrom_take (mask : Nat → UInt8) (index count : Nat) (data : List UInt8) :
    unmaskFrom mask index (data.take count) = (unmaskFrom mask index data).take count := by
  induction data generalizing index count with
  | nil => simp [unmaskFrom]
  | cons byte rest ih =>
      cases count with
      | zero => rfl
      | succ count => simp [unmaskFrom, ih]

/-- Clipping and unmasking commute. -/
theorem Buffer.clip_unmask (buffer : Buffer) (data : List UInt8) (mask : Nat → UInt8) :
    buffer.clip (unmask data mask) = unmask (buffer.clip data) mask := by
  unfold Buffer.clip unmask
  split
  · rfl
  · exact (unmaskFrom_take mask 0 _ data).symm

/-! ## `data_t` -/

/-- A static data buffer. -/
structure Data where
  /-- The bytes held, `length` of them. -/
  buffer : List UInt8
  /-- Size of the array behind it. -/
  capacity : Nat
  deriving DecidableEq, Repr

/-- `data_init`. -/
def dataInit (size : Nat) : Data := { buffer := [], capacity := size }

/-- `data_set_data`: at most `capacity` bytes are kept. -/
def dataSetData (data : Data) (input : List UInt8) : Data :=
  { data with buffer := input.take data.capacity }

/-- `buffer_get_data2`: read `count` bytes from the front of a buffer's memory. -/
def bufferGetData2 (heap : Heap) (buffer : Buffer) (data : Data) (count : Nat) : Data :=
  dataSetData data (readBytes heap buffer.data 0 count)

end Jabsocket
