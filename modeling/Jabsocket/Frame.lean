import Jabsocket.Buffer
import Jabsocket.Scanner

/-!
# Decoding one WebSocket frame

`getFrame` is `get_frame` of `wsmessage.c`: it copies the payload before it knows whether the
frame is complete, so it reads behind the source buffer.  `scanFrame` is the same decision on a
byte string alone.  The two agree up to the limit of the destination for lengths below 2^31, and
`scanFrame` is an incremental scanner.  `wsmessage.c` has no declaration of `ntohl` in scope, so its
result is an `int`, and a longer length is a negative one which is extended to a huge `size_t`.
-/

namespace Jabsocket

/-- The parts of a frame which the decoder reports. -/
structure Frame where
  /-- FIN flag. -/
  fin : Bool
  /-- Opcode, below 16. -/
  opcode : Nat
  /-- MASK flag. -/
  mask : Bool
  /-- Unmasked payload. -/
  payload : List UInt8
  deriving DecidableEq, Repr

/-- Outcome of `get_frame`: the status, and the buffers and values it writes. -/
inductive GetFrame where
  /-- `FS_BUILDING`. -/
  | building (dest : Buffer)
  /-- `FS_ERROR`. -/
  | error (dest : Buffer)
  /-- `FS_READY`. -/
  | ready (fin : Bool) (opcode : Nat) (mask : Bool) (source dest : Buffer)
  deriving DecidableEq, Repr

/-- Payload length and header length announced by the first `length` bytes, if they suffice; a
payload length in eight bytes is given by the 32 bits which `ntohl` returns. -/
def frameHeader (byte : Nat → UInt8) (length : Nat) : Option (Nat × Nat) :=
  let messageLength := (byte 1 &&& 0x7f).toNat
  if messageLength = 126 then
    if length < 4 then none else some (ntohs (loadU16 (byte 2) (byte 3)), 4)
  else if messageLength = 127 then
    if length < 10 then none
    else some (ntohl (loadU32 (byte 6) (byte 7) (byte 8) (byte 9)), 10)
  else
    some (messageLength, 2)

/-- `get_frame`. -/
def getFrame (sizeMod : Nat) (heap : Heap) (source dest : Buffer) : GetFrame :=
  let byte := readByte heap source.data
  if source.length < 2 then
    .building dest
  else if byte 0 &&& 0x70 ≠ 0 then
    .error dest
  else
    match frameHeader byte source.length with
    | none => .building dest
    | some (announced, headerLength) =>
        let messageLength := intToSize sizeMod announced
        let mask : Bool := byte 1 &&& 0x80 ≠ 0
        let start := if mask then sizeAdd sizeMod headerLength 4 else headerLength
        let frameLength := sizeAdd sizeMod start messageLength
        match bufferSetMemory sizeMod dest (fun index => byte (start + index)) messageLength with
        | (dest, false) => .error dest
        | (dest, true) =>
            if source.length < frameLength then
              .building dest
            else
              .ready (byte 0 &&& 0x80 ≠ 0) (byte 0 &&& 0x0f).toNat mask
                (bufferRemoveData source frameLength)
                (if mask then
                  { dest with data := unmask dest.data fun index => byte (headerLength + index) }
                else dest)

/-! ## The decision on a byte string -/

/-- The byte of a string at an index inside it. -/
def byteAt (data : List UInt8) (index : Nat) : UInt8 := data.getD index 0

/-- Where the payload starts. -/
def payloadStart (byte : Nat → UInt8) (headerLength : Nat) : Nat :=
  if byte 1 &&& 0x80 ≠ 0 then headerLength + 4 else headerLength

/-- The frame with the given announced lengths at the front of a byte string. -/
def frameAt (data : List UInt8) (messageLength headerLength : Nat) : Frame :=
  let payload := (data.drop (payloadStart (byteAt data) headerLength)).take messageLength
  { fin := byteAt data 0 &&& 0x80 ≠ 0
    opcode := (byteAt data 0 &&& 0x0f).toNat
    mask := byteAt data 1 &&& 0x80 ≠ 0
    payload :=
      if byteAt data 1 &&& 0x80 ≠ 0 then
        unmask payload fun index => byteAt data (headerLength + index)
      else payload }

/-- Look for a frame at the front of a byte string. -/
def scanFrame (data : List UInt8) : Scan UInt8 Frame :=
  if data.length < 2 then
    .more
  else if byteAt data 0 &&& 0x70 ≠ 0 then
    .fail
  else
    match frameHeader (byteAt data) data.length with
    | none => .more
    | some (messageLength, headerLength) =>
        if data.length < payloadStart (byteAt data) headerLength + messageLength then
          .more
        else
          .item (frameAt data messageLength headerLength)
            (data.drop (payloadStart (byteAt data) headerLength + messageLength))

theorem byteAt_append {data : List UInt8} (later : List UInt8) {index : Nat}
    (inside : index < data.length) :
    byteAt (data ++ later) index = byteAt data index := by
  simp [byteAt, List.getD, List.getElem?_append_left inside]

theorem readByte_eq_byteAt (heap : Heap) {data : List UInt8} {index : Nat}
    (inside : index < data.length) : readByte heap data index = byteAt data index := by
  simp [readByte, byteAt, inside]

/-- The announced lengths depend only on bytes which are present. -/
theorem frameHeader_congr {byte : Nat → UInt8} (other : Nat → UInt8) {length : Nat}
    (agree : ∀ index < length, byte index = other index) (two_le : 2 ≤ length) :
    frameHeader byte length = frameHeader other length := by
  unfold frameHeader
  rw [agree 1 (by omega)]
  dsimp only
  split
  · split
    · rfl
    · rw [agree 2 (by omega), agree 3 (by omega)]
  · split
    · split
      · rfl
      · rw [agree 6 (by omega), agree 7 (by omega), agree 8 (by omega), agree 9 (by omega)]
    · rfl

/-- The announced lengths only need the header to be present. -/
theorem frameHeader_of_le {byte : Nat → UInt8} (length : Nat)
    {other messageLength headerLength : Nat}
    (announced : frameHeader byte length = some (messageLength, headerLength))
    (le : headerLength ≤ other) : frameHeader byte other = some (messageLength, headerLength) := by
  unfold frameHeader at announced ⊢
  dsimp only at announced ⊢
  split at announced
  · rename_i is126
    rw [if_pos is126]
    split at announced
    · cases announced
    · cases announced
      rw [if_neg (by omega)]
  · rename_i not126
    rw [if_neg not126]
    split at announced
    · rename_i is127
      rw [if_pos is127]
      split at announced
      · cases announced
      · cases announced
        rw [if_neg (by omega)]
    · rename_i not127
      rw [if_neg not127]
      exact announced

/-- Announced lengths fit 32 bits, and the header is present. -/
theorem frameHeader_bounds {byte : Nat → UInt8} {length messageLength headerLength : Nat}
    (announced : frameHeader byte length = some (messageLength, headerLength))
    (two_le : 2 ≤ length) :
    messageLength < 2 ^ 32 ∧ 2 ≤ headerLength ∧ headerLength ≤ 10 ∧ headerLength ≤ length := by
  unfold frameHeader at announced
  dsimp only at announced
  split at announced
  · split at announced
    · cases announced
    · cases announced
      have := (byte 2).toNat_lt
      have := (byte 3).toNat_lt
      rw [ntohs_loadU16]
      omega
  · split at announced
    · split at announced
      · cases announced
      · cases announced
        have := (byte 6).toNat_lt
        have := (byte 7).toNat_lt
        have := (byte 8).toNat_lt
        have := (byte 9).toNat_lt
        rw [ntohl_loadU32]
        omega
    · cases announced
      have := (byte 1 &&& 0x7f).toNat_lt
      omega

theorem le_payloadStart (byte : Nat → UInt8) (headerLength : Nat) :
    headerLength ≤ payloadStart byte headerLength := by
  unfold payloadStart
  split <;> omega

theorem payloadStart_le (byte : Nat → UInt8) (headerLength : Nat) :
    payloadStart byte headerLength ≤ headerLength + 4 := by
  unfold payloadStart
  split <;> omega

/-- Inversion of a found frame. -/
theorem scanFrame_eq_item_iff {data rest : List UInt8} {frame : Frame} :
    scanFrame data = .item frame rest ↔
      2 ≤ data.length ∧ byteAt data 0 &&& 0x70 = 0 ∧
        ∃ messageLength headerLength,
          frameHeader (byteAt data) data.length = some (messageLength, headerLength) ∧
          payloadStart (byteAt data) headerLength + messageLength ≤ data.length ∧
          frame = frameAt data messageLength headerLength ∧
          rest = data.drop (payloadStart (byteAt data) headerLength + messageLength) := by
  unfold scanFrame
  split
  · rename_i short
    simp only [reduceCtorEq, false_iff, not_and]
    intro two_le
    omega
  rename_i long
  split
  · rename_i reserved
    simp [reserved]
  rename_i plain
  have plain : byteAt data 0 &&& 0x70 = 0 := by simpa using plain
  split
  · rename_i missing
    simp [missing]
  rename_i messageLength headerLength announced
  split
  · rename_i incomplete
    simp only [reduceCtorEq, announced, Option.some.injEq, Prod.mk.injEq, false_iff]
    rintro ⟨-, -, _, _, ⟨rfl, rfl⟩, complete, -⟩
    omega
  · rename_i complete
    simp only [Scan.item.injEq, announced, Option.some.injEq, Prod.mk.injEq]
    constructor
    · rintro ⟨rfl, rfl⟩
      exact ⟨by omega, plain, _, _, ⟨rfl, rfl⟩, by omega, rfl, rfl⟩
    · rintro ⟨-, -, _, _, ⟨rfl, rfl⟩, -, rfl, rfl⟩
      exact ⟨rfl, rfl⟩

theorem scanFrame_eq_fail_iff {data : List UInt8} :
    scanFrame data = .fail ↔ 2 ≤ data.length ∧ byteAt data 0 &&& 0x70 ≠ 0 := by
  unfold scanFrame
  split
  · rename_i short
    simp only [reduceCtorEq, false_iff, not_and]
    omega
  rename_i long
  split
  · rename_i reserved
    simp only [true_iff]
    exact ⟨by omega, reserved⟩
  rename_i plain
  split
  · simp_all
  · split <;> simp_all

theorem payloadStart_append {data : List UInt8} (later : List UInt8)
    (two_le : 2 ≤ data.length) (headerLength : Nat) :
    payloadStart (byteAt (data ++ later)) headerLength =
      payloadStart (byteAt data) headerLength := by
  simp only [payloadStart]
  rw [byteAt_append _ (by omega)]

/-- A complete frame is the same frame whatever follows it. -/
theorem frameAt_append (data later : List UInt8) {messageLength headerLength : Nat}
    (two_le : 2 ≤ data.length)
    (complete : payloadStart (byteAt data) headerLength + messageLength ≤ data.length) :
    frameAt (data ++ later) messageLength headerLength =
      frameAt data messageLength headerLength := by
  have payload :
      ((data ++ later).drop (payloadStart (byteAt data) headerLength)).take messageLength =
        (data.drop (payloadStart (byteAt data) headerLength)).take messageLength := by
    rw [List.drop_append_of_le_length (by omega), List.take_append_of_le_length]
    rw [List.length_drop]
    omega
  simp only [frameAt, payloadStart_append _ two_le, payload,
    byteAt_append _ (show 0 < data.length by omega),
    byteAt_append _ (show 1 < data.length by omega)]
  by_cases masked : byteAt data 1 &&& 0x80 ≠ 0
  · have key_present : headerLength + 4 ≤ data.length := by
      simp only [payloadStart, if_pos masked] at complete
      omega
    have key : ∀ index < 4, byteAt (data ++ later) (headerLength + index) =
        byteAt data (headerLength + index) :=
      fun index bound => byteAt_append _ (by omega)
    simp only [unmask, unmaskFrom_congr key (by decide : 0 < 4)]
  · simp only [if_neg masked]

/-- The masking key of a complete frame was received. -/
theorem unmask_key (heap : Heap) {data : List UInt8} {messageLength headerLength : Nat}
    (masked : byteAt data 1 &&& 0x80 ≠ 0)
    (complete : payloadStart (byteAt data) headerLength + messageLength ≤ data.length)
    (bytes : List UInt8) :
    (unmask bytes fun index => readByte heap data (headerLength + index)) =
      unmask bytes fun index => byteAt data (headerLength + index) := by
  have key_present : headerLength + 4 ≤ data.length := by
    simp only [payloadStart, if_pos masked] at complete
    omega
  exact unmaskFrom_congr (fun index bound => readByte_eq_byteAt heap (by omega)) (by decide) _

/-- Looking for a frame is an incremental scan. -/
def frameScanner : Scanner UInt8 Frame where
  scan := scanFrame
  scan_nil := rfl
  scan_item_append := by
    intro data frame rest later found
    obtain ⟨two_le, plain, messageLength, headerLength, announced, complete, rfl, rfl⟩ :=
      scanFrame_eq_item_iff.mp found
    have header_le := (frameHeader_bounds announced two_le).2.2.2
    refine scanFrame_eq_item_iff.mpr ⟨?_, ?_, messageLength, headerLength, ?_, ?_, ?_, ?_⟩
    · rw [List.length_append]
      omega
    · rw [byteAt_append _ (by omega), plain]
    · refine frameHeader_of_le data.length ?_ ?_
      · rw [← announced]
        exact frameHeader_congr _ (fun index inside => byteAt_append _ inside) two_le
      · rw [List.length_append]
        omega
    · rw [payloadStart_append _ two_le, List.length_append]
      omega
    · rw [frameAt_append _ _ two_le complete]
    · rw [payloadStart_append _ two_le, List.drop_append_of_le_length complete]
  scan_fail_append := by
    intro data later found
    obtain ⟨two_le, reserved⟩ := scanFrame_eq_fail_iff.mp found
    refine scanFrame_eq_fail_iff.mpr ⟨?_, ?_⟩
    · rw [List.length_append]
      omega
    · rwa [byteAt_append _ (by omega)]
  scan_item_exact := by
    intro data frame rest found
    obtain ⟨two_le, plain, messageLength, headerLength, announced, complete, rfl, rfl⟩ :=
      scanFrame_eq_item_iff.mp found
    obtain ⟨-, two_le_header, -, header_le⟩ := frameHeader_bounds announced two_le
    have start_le := le_payloadStart (byteAt data) headerLength
    generalize total_eq : payloadStart (byteAt data) headerLength + messageLength = total
      at complete
    have front_length : (data.take total).length = total := by
      rw [List.length_take]
      omega
    have split_data : data.take total ++ data.drop total = data := List.take_append_drop ..
    have start_front : payloadStart (byteAt (data.take total)) headerLength =
        payloadStart (byteAt data) headerLength := by
      rw [← payloadStart_append (data.drop total) (by omega), split_data]
    refine ⟨data.take total, split_data.symm, scanFrame_eq_item_iff.mpr
      ⟨by omega, ?_, messageLength, headerLength, ?_, by omega, ?_, ?_⟩⟩
    · rw [← byteAt_append (data.drop total) (by omega), split_data, plain]
    · rw [frameHeader_congr (byteAt data) _ (by omega)]
      · exact frameHeader_of_le _ announced (by omega)
      · intro index inside
        rw [← byteAt_append (data.drop total) inside, split_data]
    · rw [← frameAt_append (data.take total) (data.drop total) (by omega)
        (by omega), split_data]
    · rw [start_front, total_eq, List.drop_eq_nil_of_le (by omega)]

/-! ## The code follows the scan -/

/-- The length announced at the front of a byte string, if any, is below 2^31. -/
def Moderate (data : List UInt8) : Prop :=
  ∀ lengths, frameHeader (byteAt data) data.length = some lengths → lengths.1 < 2 ^ 31

instance decidableModerate (data : List UInt8) : Decidable (Moderate data) :=
  match announced : frameHeader (byteAt data) data.length with
  | none => isTrue fun lengths found => by simp [announced] at found
  | some lengths =>
      decidable_of_iff (lengths.1 < 2 ^ 31)
        ⟨fun small other found => by
          obtain rfl : lengths = other := Option.some.inj (announced.symm.trans found)
          exact small, fun moderate => moderate lengths announced⟩

/-- Only a length in eight bytes can be large. -/
theorem moderate_of_ne {data : List UInt8} (short : (byteAt data 1 &&& 0x7f).toNat ≠ 127) :
    Moderate data := by
  intro lengths announced
  unfold frameHeader at announced
  dsimp only at announced
  split at announced
  · split at announced
    · cases announced
    · cases announced
      have := (byteAt data 2).toNat_lt
      have := (byteAt data 3).toNat_lt
      rw [ntohs_loadU16]
      omega
  · cases announced
    have := (byteAt data 1 &&& 0x7f).toNat_lt
    dsimp only
    omega

theorem moderate_of_short {data : List UInt8} (short : data.length < 2) : Moderate data := by
  have absent : byteAt data 1 = 0 := by
    simp [byteAt, List.getElem?_eq_none (show data.length ≤ 1 by omega)]
  exact moderate_of_ne (by rw [absent]; decide)

/-- What a prefix announces is announced by the whole. -/
theorem Moderate.of_append {data later : List UInt8} (moderate : Moderate (data ++ later)) :
    Moderate data := by
  by_cases two_le : 2 ≤ data.length
  · rintro ⟨messageLength, headerLength⟩ announced
    refine moderate (messageLength, headerLength) (frameHeader_of_le data.length ?_ ?_)
    · rw [← announced]
      exact frameHeader_congr _ (fun index inside => byteAt_append _ inside) two_le
    · rw [List.length_append]
      exact Nat.le_trans (frameHeader_bounds announced two_le).2.2.2 (Nat.le_add_right _ _)
  · exact moderate_of_short (Nat.lt_of_not_le two_le)

/-- The width of `size_t` does not matter: no sum wraps at all, or it is wider than 32 bits and the
announced length is below 2^31. -/
def Honest (sizeMod : Nat) (data : List UInt8) : Prop :=
  sizeMod = 0 ∨ 2 ^ 33 ≤ sizeMod ∧ Moderate data

theorem honest_zero (data : List UInt8) : Honest 0 data := Or.inl rfl

theorem Moderate.honest {data : List UInt8} (moderate : Moderate data) : Honest (2 ^ 64) data :=
  Or.inr ⟨by decide, moderate⟩

/-- The copy into a destination succeeds and stores what the destination keeps. -/
theorem bufferSetMemory_clip (dest : Buffer) (read : Nat → UInt8) (count : Nat) :
    ∃ stored : Buffer, bufferSetMemory 0 dest read count = (stored, true) ∧
      stored.data = dest.clip ((List.range count).map read) ∧
      stored.maxLength = dest.maxLength := by
  rw [bufferSetMemory_zero]
  generalize (List.range count).map read = input
  have emptied : (bufferClear dest).length = 0 := rfl
  have appended : (bufferSetData 0 dest input).1.data = dest.clip input ∧
      (bufferSetData 0 dest input).2 = true := by
    by_cases unlimited : dest.maxLength = 0
    · rw [Buffer.clip_of_unlimited unlimited]
      exact bufferAppend_unlimited (bufferClear dest) input unlimited (Or.inl rfl)
    by_cases empty : input = []
    · simp [bufferSetData, bufferAppend, empty, Buffer.clip]
    obtain ⟨data, ok⟩ :=
      @bufferAppend_limited 0 (bufferClear dest) input unlimited empty (Or.inl rfl)
    refine ⟨?_, ?_⟩
    · rw [bufferSetData, data, emptied, Buffer.clip, if_neg unlimited]
      rfl
    · rw [bufferSetData, ok, emptied]
      exact decide_eq_true (Nat.pos_of_ne_zero unlimited)
  exact ⟨_, Prod.ext rfl appended.2, appended.1, bufferSetData_maxLength ..⟩

section

variable {sizeMod : Nat} {source dest : Buffer} (heap : Heap)

/-- What the code computes once the announced lengths are known. -/
theorem getFrame_of_announced (wide : sizeMod = 0 ∨ 2 ^ 32 ≤ sizeMod)
    (two_le : 2 ≤ source.data.length) (plain : byteAt source.data 0 &&& 0x70 = 0)
    {messageLength headerLength : Nat}
    (announced : frameHeader (byteAt source.data) source.data.length =
      some (messageLength, headerLength)) :
    getFrame sizeMod heap source dest =
      match bufferSetMemory sizeMod dest
        (fun index => readByte heap source.data
          (payloadStart (byteAt source.data) headerLength + index))
        (intToSize sizeMod messageLength) with
      | (stored, false) => .error stored
      | (stored, true) =>
          if source.data.length <
              sizeAdd sizeMod (payloadStart (byteAt source.data) headerLength)
                (intToSize sizeMod messageLength) then
            .building stored
          else
            .ready (byteAt source.data 0 &&& 0x80 ≠ 0) (byteAt source.data 0 &&& 0x0f).toNat
              (byteAt source.data 1 &&& 0x80 ≠ 0)
              (bufferRemoveData source
                (sizeAdd sizeMod (payloadStart (byteAt source.data) headerLength)
                  (intToSize sizeMod messageLength)))
              (if byteAt source.data 1 &&& 0x80 ≠ 0 then
                { stored with
                  data := unmask stored.data
                    (fun index => readByte heap source.data (headerLength + index)) }
              else stored) := by
  obtain ⟨-, -, header_le, -⟩ := frameHeader_bounds announced two_le
  have byte₀ := readByte_eq_byteAt heap (show 0 < source.data.length by omega)
  have byte₁ := readByte_eq_byteAt heap (show 1 < source.data.length by omega)
  have header : frameHeader (readByte heap source.data) source.length =
      some (messageLength, headerLength) := by
    rw [← announced]
    exact frameHeader_congr _ (fun index inside => readByte_eq_byteAt heap inside) two_le
  have start : (if byteAt source.data 1 &&& 0x80 ≠ 0 then sizeAdd sizeMod headerLength 4
      else headerLength) = payloadStart (byteAt source.data) headerLength := by
    have exact_sum : sizeAdd sizeMod headerLength 4 = headerLength + 4 := by
      obtain rfl | large := wide
      · simp
      · exact sizeAdd_of_lt (by omega)
    rw [exact_sum, payloadStart]
  have long : ¬ source.length < 2 := by
    simp only [Buffer.length]
    omega
  simp only [getFrame, if_neg long, byte₀, byte₁, plain, ne_eq, not_true_eq_false, if_false,
    header, decide_eq_true_eq]
  rw [start]
  rfl

/-- What the code computes when the width of `size_t` does not matter. -/
theorem getFrame_of_header (honest : Honest sizeMod source.data)
    (two_le : 2 ≤ source.data.length) (plain : byteAt source.data 0 &&& 0x70 = 0)
    {messageLength headerLength : Nat}
    (announced : frameHeader (byteAt source.data) source.data.length =
      some (messageLength, headerLength)) :
    ∃ stored : Buffer, stored.maxLength = dest.maxLength ∧
      stored.data = dest.clip (readBytes heap source.data
        (payloadStart (byteAt source.data) headerLength) messageLength) ∧
      getFrame sizeMod heap source dest =
        if source.data.length < payloadStart (byteAt source.data) headerLength + messageLength then
          .building stored
        else
          .ready (byteAt source.data 0 &&& 0x80 ≠ 0) (byteAt source.data 0 &&& 0x0f).toNat
            (byteAt source.data 1 &&& 0x80 ≠ 0)
            (bufferRemoveData source
              (payloadStart (byteAt source.data) headerLength + messageLength))
            (if byteAt source.data 1 &&& 0x80 ≠ 0 then
              { stored with
                data := unmask stored.data
                  (fun index => readByte heap source.data (headerLength + index)) }
            else stored) := by
  obtain ⟨-, -, header_le, -⟩ := frameHeader_bounds announced two_le
  have start_le := payloadStart_le (byteAt source.data) headerLength
  have exact_sums : intToSize sizeMod messageLength = messageLength ∧
      sizeAdd sizeMod (payloadStart (byteAt source.data) headerLength) messageLength =
        payloadStart (byteAt source.data) headerLength + messageLength ∧
      ∀ read, bufferSetMemory sizeMod dest read messageLength =
        bufferSetMemory 0 dest read messageLength := by
    obtain rfl | ⟨large, moderate⟩ := honest
    · simp
    · have small : messageLength < 2 ^ 31 := moderate _ announced
      exact ⟨intToSize_of_lt _ small, sizeAdd_of_lt (by omega),
        fun read => bufferSetMemory_of_lt large dest read small⟩
  obtain ⟨exact_length, total, copy⟩ := exact_sums
  obtain ⟨stored, copied, data, limit⟩ := bufferSetMemory_clip dest
    (fun index => readByte heap source.data
      (payloadStart (byteAt source.data) headerLength + index)) messageLength
  refine ⟨stored, limit, data, ?_⟩
  rw [getFrame_of_announced heap (honest.imp_right fun large => by omega) two_le plain announced,
    exact_length, total, copy, copied]

/-- A frame whose negative length cannot be allocated is an error. -/
theorem getFrame_of_negative (large : 2 ^ 33 ≤ sizeMod) (two_le : 2 ≤ source.data.length)
    (plain : byteAt source.data 0 &&& 0x70 = 0) {messageLength headerLength : Nat}
    (announced : frameHeader (byteAt source.data) source.data.length =
      some (messageLength, headerLength))
    (negative : 2 ^ 31 ≤ messageLength) (beyond : messageLength + 1024 ≤ 2 ^ 32)
    (unlimited : dest.maxLength = 0) (small : dest.capacity < sizeMod - 2 ^ 32 + 2 ^ 31) :
    getFrame sizeMod heap source dest = .error (bufferClear dest) := by
  rw [getFrame_of_announced heap (Or.inr (by omega)) two_le plain announced, bufferSetMemory,
    bufferSetPlan_of_negative large unlimited negative beyond small]

/-- When the width of `size_t` does not matter, the code computes the same in all of them. -/
theorem Honest.getFrame_eq (honest : Honest sizeMod source.data) :
    getFrame sizeMod heap source dest = getFrame 0 heap source dest := by
  by_cases short : source.data.length < 2
  · simp [getFrame, Buffer.length, short]
  have two_le : 2 ≤ source.data.length := Nat.not_lt.mp short
  have byte₀ := readByte_eq_byteAt heap (show 0 < source.data.length by omega)
  by_cases plain : byteAt source.data 0 &&& 0x70 = 0
  · cases announced : frameHeader (byteAt source.data) source.data.length with
    | none =>
        have header : frameHeader (readByte heap source.data) source.data.length = none := by
          rw [← announced]
          exact frameHeader_congr _ (fun index inside => readByte_eq_byteAt heap inside) two_le
        simp [getFrame, Buffer.length, header]
    | some lengths =>
        obtain ⟨messageLength, headerLength⟩ := lengths
        obtain ⟨-, -, header_le, -⟩ := frameHeader_bounds announced two_le
        have start_le := payloadStart_le (byteAt source.data) headerLength
        obtain rfl | ⟨large, moderate⟩ := honest
        · rfl
        have small : messageLength < 2 ^ 31 := moderate _ announced
        rw [getFrame_of_announced heap (Or.inr (by omega)) two_le plain announced,
          getFrame_of_announced heap (Or.inl rfl) two_le plain announced, intToSize_of_lt _ small,
          intToSize_zero_mod, bufferSetMemory_of_lt large dest _ small, sizeAdd_zero_mod,
          sizeAdd_of_lt (show _ + messageLength < sizeMod by omega)]
  · simp [getFrame, Buffer.length, short, byte₀, plain]

/-- Without a decision the code keeps building, whatever the heap holds. -/
theorem getFrame_of_more (honest : Honest sizeMod source.data) (dest : Buffer)
    (found : scanFrame source.data = .more) :
    ∃ stored : Buffer, getFrame sizeMod heap source dest = .building stored ∧
      stored.maxLength = dest.maxLength := by
  by_cases short : source.data.length < 2
  · exact ⟨dest, by simp [getFrame, Buffer.length, short], rfl⟩
  by_cases plain : byteAt source.data 0 &&& 0x70 = 0
  · cases announced : frameHeader (byteAt source.data) source.data.length with
    | none =>
        have header : frameHeader (readByte heap source.data) source.data.length = none := by
          rw [← announced]
          exact frameHeader_congr _ (fun index inside => readByte_eq_byteAt heap inside) (by omega)
        refine ⟨dest, ?_, rfl⟩
        simp [getFrame, Buffer.length, short, header, plain,
          readByte_eq_byteAt heap (show 0 < source.data.length by omega)]
    | some lengths =>
        obtain ⟨messageLength, headerLength⟩ := lengths
        obtain ⟨stored, limit, -, outcome⟩ :=
          getFrame_of_header heap honest (by omega) plain announced
        refine ⟨stored, ?_, limit⟩
        rw [outcome, if_pos]
        simp only [scanFrame, if_neg short, plain, ne_eq, not_true_eq_false, if_false,
          announced] at found
        by_contra complete
        simp [complete] at found
  · have rejected := scanFrame_eq_fail_iff.mpr ⟨show 2 ≤ source.data.length by omega, plain⟩
    simp [rejected] at found

/-- Reserved bits are an error. -/
theorem getFrame_of_fail (found : scanFrame source.data = .fail) :
    getFrame sizeMod heap source dest = .error dest := by
  obtain ⟨two_le, reserved⟩ := scanFrame_eq_fail_iff.mp found
  have long : ¬ source.length < 2 := by
    simp only [Buffer.length]
    omega
  simp [getFrame, long, reserved,
    readByte_eq_byteAt heap (show 0 < source.data.length by omega)]

/-- A found frame is taken out of the source and its payload stored. -/
theorem getFrame_of_item (honest : Honest sizeMod source.data) (dest : Buffer)
    {frame : Frame} {rest : List UInt8} (found : scanFrame source.data = .item frame rest) :
    ∃ stored : Buffer, getFrame sizeMod heap source dest =
        .ready frame.fin frame.opcode frame.mask { source with data := rest } stored ∧
      stored.data = dest.clip frame.payload ∧ stored.maxLength = dest.maxLength := by
  obtain ⟨two_le, plain, messageLength, headerLength, announced, complete, rfl, rfl⟩ :=
    scanFrame_eq_item_iff.mp found
  obtain ⟨stored, limit, data, outcome⟩ :=
    getFrame_of_header heap honest two_le plain announced
  rw [readBytes_of_le heap complete] at data
  rw [outcome, if_neg (by omega)]
  refine ⟨_, rfl, ?_, ?_⟩
  · by_cases masked : byteAt source.data 1 &&& 0x80 ≠ 0
    · simp only [if_pos masked, frameAt, Buffer.clip_unmask, data]
      exact unmask_key heap masked complete _
    · simp only [if_neg masked, frameAt, data]
  · split <;> exact limit

end

end Jabsocket
