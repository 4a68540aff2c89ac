import Jabsocket.Message
import Jabsocket.WireFrame

/-!
# What `get_frame` decodes, measures and reads

Three views of `get_frame`.  It decodes every frame of RFC 6455 below 2^32 bytes incrementally.  It
measures a frame by the low four bytes of a long length and by a sum in `size_t`, so it can report a
frame of another size than the one stated.  It copies the payload before it knows whether the
payload has arrived, so it can read bytes which were never received.
-/

namespace Jabsocket

/-! ## Complete frames and proper prefixes -/

/-- The source buffer after `get_frame`; only a frame which is ready is taken out. -/
def GetFrame.source (before : Buffer) : GetFrame → Buffer
  | .building _ => before
  | .error _ => before
  | .ready _ _ _ source _ => source

/-- A frame is decoded whatever follows it; while it is incomplete it is left alone. -/
def DecodesIncrementally (frame : WireFrame) : Prop :=
  ∀ (heap : Heap) (rest : List UInt8) (source dest : Buffer),
    dest.maxLength = 0 ∨ frame.body.length ≤ dest.maxLength →
    (source.data = frame.bytes ++ rest →
      ∃ stored : Buffer,
        getFrame (2 ^ 64) heap source dest =
            .ready frame.fin frame.opcode frame.key.isSome { source with data := rest } stored ∧
          stored.data = frame.payload) ∧
      (source.data <+: frame.bytes → source.data ≠ frame.bytes →
        ∃ stored : Buffer,
          getFrame (2 ^ 64) heap source dest = .building stored ∧
            (getFrame (2 ^ 64) heap source dest).source source = source)

theorem decodesIncrementally_of_lt {frame : WireFrame} (short : frame.body.length < 2 ^ 31) :
    DecodesIncrementally frame := by
  intro heap rest source dest room
  constructor
  · intro received
    have honest : Honest (2 ^ 64) source.data :=
      received ▸ (frame.moderate_bytes short rest).honest
    have found := frame.scanFrame_bytes rest
    rw [← received] at found
    obtain ⟨stored, ready, data, -⟩ := getFrame_of_item heap honest dest found
    refine ⟨stored, ready, data.trans (Buffer.clip_of_le ?_)⟩
    rwa [WireFrame.decoded_payload, WireFrame.length_payload]
  · intro beginning proper
    have found := frame.scanFrame_of_isPrefix beginning proper
    have honest : Honest (2 ^ 64) source.data := by
      obtain ⟨later, bytes_eq⟩ := beginning
      have moderate := frame.moderate_bytes short []
      rw [List.append_nil, ← bytes_eq] at moderate
      exact moderate.of_append.honest
    obtain ⟨stored, building, -⟩ := getFrame_of_more heap honest dest found
    exact ⟨stored, building, by rw [building]; rfl⟩

/-- A frame is its header, with the masking key if there is one, and its body. -/
theorem WireFrame.length_bytes (frame : WireFrame) :
    frame.bytes.length =
      payloadStart (byteAt frame.bytes) frame.form.headerLength + frame.body.length := by
  have announced := frame.frameHeader_bytes []
  have found := frame.scanFrame_bytes []
  rw [List.append_nil] at announced found
  obtain ⟨-, -, _, _, same, complete, -, rest_eq⟩ := scanFrame_eq_item_iff.mp found
  obtain ⟨rfl, rfl⟩ := Prod.mk.inj (Option.some.inj (announced.symm.trans same))
  exact Nat.le_antisymm (List.drop_eq_nil_iff.mp rest_eq.symm) complete

/-- A part of a frame which includes its header and its key announces the length of the body. -/
theorem WireFrame.header_of_isPrefix (frame : WireFrame) {data : List UInt8}
    (beginning : data <+: frame.bytes)
    (start_le : payloadStart (byteAt frame.bytes) frame.form.headerLength ≤ data.length) :
    2 ≤ data.length ∧ byteAt data 0 &&& 0x70 = 0 ∧
      frameHeader (byteAt data) data.length =
        some (frame.body.length, frame.form.headerLength) ∧
      payloadStart (byteAt data) frame.form.headerLength =
        payloadStart (byteAt frame.bytes) frame.form.headerLength := by
  have announced := frame.frameHeader_bytes []
  rw [List.append_nil] at announced
  have header_le := le_payloadStart (byteAt frame.bytes) frame.form.headerLength
  have two_le : 2 ≤ data.length := by
    have header := LengthForm.length_extended frame.form frame.body.length
    omega
  obtain ⟨later, bytes_eq⟩ := beginning
  refine ⟨two_le, ?_, ?_, ?_⟩
  · rw [← byteAt_append later (by omega), bytes_eq]
    exact frame.firstByte_decodes.1
  · rw [frameHeader_congr (byteAt frame.bytes) (fun index inside => ?_) two_le]
    · exact frameHeader_of_le _ announced (by omega)
    · rw [← byteAt_append later inside, bytes_eq]
  · rw [← payloadStart_append later two_le, bytes_eq]

/-- A frame whose body has 2^31 bytes or more is not decoded: its length is negative, so it is
refused, or never complete, or taken before its body has arrived. -/
theorem not_decodesIncrementally_of_le {frame : WireFrame} (large : 2 ^ 31 ≤ frame.body.length) :
    ¬ DecodesIncrementally frame := by
  intro decodes
  have small := frame.small
  have length_eq := frame.length_bytes
  have start_le := payloadStart_le (byteAt frame.bytes) frame.form.headerLength
  have header_le : frame.form.headerLength ≤ 10 := by
    cases frame.form <;> decide
  have extended : intToSize (2 ^ 64) frame.body.length =
      frame.body.length + (2 ^ 64 - 2 ^ 32) := if_neg (Nat.not_lt.mpr large)
  generalize start_eq : payloadStart (byteAt frame.bytes) frame.form.headerLength = start at *
  have front_length : (frame.bytes.take start).length = start := by
    rw [List.length_take]
    omega
  -- The header and the key alone are a proper prefix.
  have front_building := (decodes (fun _ _ => 0) []
    { bufferCreate 0 with data := frame.bytes.take start } (bufferCreate 0) (Or.inl rfl)).2
    (List.take_prefix _ _) (fun whole => by
      have lengths := congrArg List.length whole
      dsimp only at lengths
      omega)
  obtain ⟨waiting, building, -⟩ := front_building
  obtain ⟨two_le, plain, announced, same_start⟩ := frame.header_of_isPrefix
    (List.take_prefix start frame.bytes) (by rw [start_eq, front_length])
  rw [start_eq] at same_start
  by_cases refused : frame.body.length + 1024 ≤ 2 ^ 32
  · have failed := @getFrame_of_negative (2 ^ 64)
      { bufferCreate 0 with data := frame.bytes.take start } (bufferCreate 0) (fun _ _ => 0)
      (by decide) two_le plain _ _ announced large refused rfl (by decide)
    rw [building] at failed
    cases failed
  have plan := @bufferSetPlan_of_wrapped (2 ^ 64) (by decide) (bufferCreate 0) rfl
    frame.body.length small (by omega) (show 128 < _ by omega)
  by_cases early : 2 ^ 32 ≤ start + frame.body.length
  · have outcome := @getFrame_of_announced (2 ^ 64)
      { bufferCreate 0 with data := frame.bytes.take start } (bufferCreate 0) (fun _ _ => 0)
      (Or.inr (by decide)) two_le plain _ _ announced
    rw [bufferSetMemory, plan, building] at outcome
    dsimp only at outcome
    rw [if_neg ?_] at outcome
    · cases outcome
    · rw [front_length, same_start, sizeAdd, extended]
      omega
  · have complete := (decodes (fun _ _ => 0) [] { bufferCreate 0 with data := frame.bytes }
      (bufferCreate 0) (Or.inl rfl)).1 (List.append_nil _).symm
    obtain ⟨stored, ready, -⟩ := complete
    obtain ⟨two_le, plain, announced, -⟩ :=
      frame.header_of_isPrefix (List.prefix_refl _) (by omega)
    have outcome := @getFrame_of_announced (2 ^ 64)
      { bufferCreate 0 with data := frame.bytes } (bufferCreate 0) (fun _ _ => 0)
      (Or.inr (by decide)) two_le plain _ _ announced
    rw [bufferSetMemory, plan, ready] at outcome
    dsimp only at outcome
    rw [if_pos ?_] at outcome
    · cases outcome
    · rw [start_eq, sizeAdd, extended]
      omega

theorem decodesIncrementally_iff (frame : WireFrame) :
    DecodesIncrementally frame ↔ frame.body.length < 2 ^ 31 :=
  ⟨fun decodes => Nat.lt_of_not_le fun large => not_decodesIncrementally_of_le large decodes,
    decodesIncrementally_of_lt⟩

/-- The masked text frame `Hello`. -/
def helloFrame : WireFrame where
  fin := true
  opcode := 1
  key := some ![0x37, 0xfa, 0x21, 0x3d]
  form := .seven
  body := [0x7f, 0x9f, 0x4d, 0x51, 0x58]
  fits := by decide
  small := by decide

theorem endlessBody_lt : (List.replicate (2 ^ 32 - 14) (0 : UInt8)).length < 2 ^ 32 := by
  rw [List.length_replicate]
  decide

/-- A masked pong whose body is 14 bytes short of 4 GiB. -/
def endlessPong : WireFrame where
  fin := true
  opcode := 10
  key := some ![0, 0, 0, 0]
  form := .sixtyFour
  body := List.replicate (2 ^ 32 - 14) 0
  fits := Nat.lt_trans endlessBody_lt (Nat.lt_of_sub_eq_succ rfl)
  small := endlessBody_lt

/-- The pong is taken before its masking key has arrived. -/
theorem not_decodesIncrementally_endlessPong : ¬ DecodesIncrementally endlessPong := by
  refine not_decodesIncrementally_of_le ?_
  rw [endlessPong, List.length_replicate]
  decide

/-! ## Reading from memory which may be missing -/

/-- `memcpy` of `count` bytes from memory which may be missing. -/
def copyBytes (fetch : Nat → Option UInt8) (count : Nat) : Option (List UInt8) :=
  (List.range count).mapM fetch

/-- `buffer_set_data`, copying from memory which may be missing. -/
def bufferSetDataFrom (sizeMod : Nat) (buffer : Buffer) (fetch : Nat → Option UInt8)
    (count : Nat) : Option (Buffer × Bool) :=
  match bufferSetPlan sizeMod buffer count with
  | none => some (bufferClear buffer, false)
  | some (length, capacity) =>
      (copyBytes fetch length).map fun bytes => ({ buffer with data := bytes, capacity }, true)

/-- The lengths announced by a header, read from memory which may be missing. -/
def frameHeaderFrom (fetch : Nat → Option UInt8) (length : Nat) : Option (Option (Nat × Nat)) :=
  (fetch 1).bind fun second =>
    let messageLength := (second &&& 0x7f).toNat
    if messageLength = 126 then
      if length < 4 then some none
      else
        (fetch 2).bind fun b₂ =>
        (fetch 3).map fun b₃ => some (ntohs (loadU16 b₂ b₃), 4)
    else if messageLength = 127 then
      if length < 10 then some none
      else
        (fetch 6).bind fun b₆ =>
        (fetch 7).bind fun b₇ =>
        (fetch 8).bind fun b₈ =>
        (fetch 9).map fun b₉ => some (ntohl (loadU32 b₆ b₇ b₈ b₉), 10)
    else
      some (some (messageLength, 2))

/-- The loop of `unmask`, with a key in memory which may be missing. -/
def unmaskFetched (fetch : Nat → Option UInt8) : Nat → List UInt8 → Option (List UInt8)
  | _, [] => some []
  | index, byte :: rest =>
      (fetch index).bind fun key =>
        (unmaskFetched fetch (if index + 1 = 4 then 0 else index + 1) rest).map
          ((byte ^^^ key) :: ·)

/-- `get_frame`, where every read at or beyond the length of the source fails. -/
def getFrameChecked (sizeMod : Nat) (source dest : Buffer) : Option GetFrame :=
  let fetch : Nat → Option UInt8 := fun index => source.data[index]?
  if source.length < 2 then
    some (.building dest)
  else
    (fetch 0).bind fun first =>
      if first &&& 0x70 ≠ 0 then
        some (.error dest)
      else
        (fetch 1).bind fun second =>
        (frameHeaderFrom fetch source.length).bind fun header =>
          match header with
          | none => some (.building dest)
          | some (announced, headerLength) =>
              let messageLength := intToSize sizeMod announced
              let mask : Bool := second &&& 0x80 ≠ 0
              let start := if mask then sizeAdd sizeMod headerLength 4 else headerLength
              let frameLength := sizeAdd sizeMod start messageLength
              (bufferSetDataFrom sizeMod dest (fun index => fetch (start + index))
                messageLength).bind fun copied =>
                match copied with
                | (dest, false) => some (.error dest)
                | (dest, true) =>
                    if source.length < frameLength then
                      some (.building dest)
                    else
                      (if mask then
                        unmaskFetched (fun index => fetch (headerLength + index)) 0 dest.data
                      else some dest.data).map fun data =>
                          .ready (first &&& 0x80 ≠ 0) (first &&& 0x0f).toNat mask
                            (bufferRemoveData source frameLength) { dest with data }

theorem copyBytes_succ (fetch : Nat → Option UInt8) (count : Nat) :
    copyBytes fetch (count + 1) =
      (copyBytes fetch count).bind fun bytes => (fetch count).map fun byte => bytes ++ [byte] := by
  simp only [copyBytes, List.range_succ, List.mapM_append, List.mapM_cons, List.mapM_nil]
  cases (List.range count).mapM fetch <;> cases fetch count <;> rfl

/-- The copy succeeds exactly when all bytes are there. -/
theorem copyBytes_isSome_iff (fetch : Nat → Option UInt8) (count : Nat) :
    (copyBytes fetch count).isSome = true ↔ ∀ index < count, (fetch index).isSome = true := by
  induction count with
  | zero => simp [copyBytes]
  | succ count ih =>
      rw [copyBytes_succ, Option.isSome_bind, Option.any_eq_true]
      simp only [Option.isSome_map]
      constructor
      · rintro ⟨bytes, copied, last⟩ index bound
        obtain earlier | rfl := Nat.lt_succ_iff_lt_or_eq.mp bound
        · exact ih.mp (by rw [copied]; rfl) index earlier
        · exact last
      · intro present
        obtain ⟨bytes, copied⟩ := Option.isSome_iff_exists.mp
          (ih.mpr fun index bound => present index (Nat.lt_succ_of_lt bound))
        exact ⟨bytes, copied, present count (Nat.lt_succ_self count)⟩

/-- The copy holds the bytes which are there. -/
theorem copyBytes_of_forall {fetch : Nat → Option UInt8} {byte : Nat → UInt8} {count : Nat}
    (present : ∀ index < count, fetch index = some (byte index)) :
    copyBytes fetch count = some ((List.range count).map byte) := by
  induction count with
  | zero => rfl
  | succ count ih =>
      rw [copyBytes_succ, ih fun index bound => present index (Nat.lt_succ_of_lt bound),
        present count (Nat.lt_succ_self count), List.range_succ, List.map_append]
      rfl

theorem frameHeaderFrom_eq {fetch : Nat → Option UInt8} {byte : Nat → UInt8} {length : Nat}
    (present : ∀ index < length, fetch index = some (byte index)) (two_le : 2 ≤ length) :
    frameHeaderFrom fetch length = some (frameHeader byte length) := by
  unfold frameHeaderFrom frameHeader
  rw [present 1 (by omega), Option.bind_some]
  dsimp only
  split
  · split
    · rfl
    · rw [present 2 (by omega), present 3 (by omega)]
      rfl
  · split
    · split
      · rfl
      · rw [present 6 (by omega), present 7 (by omega), present 8 (by omega),
          present 9 (by omega)]
        rfl
    · rfl

theorem unmaskFetched_eq {fetch : Nat → Option UInt8} {mask : Nat → UInt8}
    (present : ∀ index < 4, fetch index = some (mask index)) {index : Nat} (bound : index < 4)
    (data : List UInt8) : unmaskFetched fetch index data = some (unmaskFrom mask index data) := by
  induction data generalizing index with
  | nil => rfl
  | cons byte rest ih =>
      have next_bound : (if index + 1 = 4 then 0 else index + 1) < 4 := by split <;> omega
      rw [unmaskFetched, present index bound, ih next_bound]
      rfl

theorem fetch_eq_byteAt {data : List UInt8} {index : Nat} (inside : index < data.length) :
    data[index]? = some (byteAt data index) := by
  simp [byteAt, inside]

/-! ## The length which a frame states -/

/-- The payload length which the header of a frame states. -/
def statedLength (byte : Nat → UInt8) : Nat :=
  let field := (byte 1 &&& 0x7f).toNat
  if field = 126 then ofBigEndian [byte 2, byte 3]
  else if field = 127 then
    ofBigEndian [byte 2, byte 3, byte 4, byte 5, byte 6, byte 7, byte 8, byte 9]
  else field

/-- Length of the header up to the masking key. -/
def statedHeader (byte : Nat → UInt8) : Nat :=
  let field := (byte 1 &&& 0x7f).toNat
  if field = 126 then 4 else if field = 127 then 10 else 2

/-- `get_frame` takes the length modulo 2^32. -/
theorem frameHeader_eq_stated (byte : Nat → UInt8) {length : Nat} (two_le : 2 ≤ length) :
    frameHeader byte length =
      if length < statedHeader byte then none
      else some (statedLength byte % 2 ^ 32, statedHeader byte) := by
  unfold frameHeader statedLength statedHeader
  dsimp only
  split
  · have := (byte 2).toNat_lt
    have := (byte 3).toNat_lt
    split
    · rfl
    · rw [ntohs_loadU16, Nat.mod_eq_of_lt]
      · simp [ofBigEndian]
      · simp only [ofBigEndian, List.foldl_cons, List.foldl_nil]
        omega
  · split
    · have := (byte 6).toNat_lt
      have := (byte 7).toNat_lt
      have := (byte 8).toNat_lt
      have := (byte 9).toNat_lt
      split
      · rfl
      · rw [ntohl_loadU32]
        simp only [ofBigEndian, List.foldl_cons, List.foldl_nil, Option.some.injEq, Prod.mk.injEq,
          and_true]
        omega
    · have := (byte 1 &&& 0x7f).toNat_lt
      rw [if_neg (by omega), Nat.mod_eq_of_lt (by omega)]

theorem statedHeader_le (byte : Nat → UInt8) : statedHeader byte ≤ 10 := by
  unfold statedHeader
  dsimp only
  split_ifs <;> omega

/-- Where the payload of a frame starts, according to its header. -/
def statedStart (byte : Nat → UInt8) : Nat := payloadStart byte (statedHeader byte)

/-- The lengths of a frame are known: the first two bytes are valid, and the length bytes are
there. -/
structure HeaderKnown (source : Buffer) : Prop where
  two_le : 2 ≤ source.length
  plain : byteAt source.data 0 &&& 0x70 = 0
  header_le : statedHeader (byteAt source.data) ≤ source.length

section Measured

variable {sizeMod : Nat} {source : Buffer}

/-- The payload length with which `get_frame` computes once the lengths are known. -/
def measuredLength (sizeMod : Nat) (source : Buffer) : Nat :=
  intToSize sizeMod (statedLength (byteAt source.data) % 2 ^ 32)

/-- The size of the frame which `get_frame` computes once the lengths are known. -/
def measuredSize (sizeMod : Nat) (source : Buffer) : Nat :=
  (statedStart (byteAt source.data) + measuredLength sizeMod source) % sizeMod

/-- How many bytes `get_frame` copies once the lengths are known, with the new capacity of the
destination; `none` when the copy fails. -/
def copyPlan (sizeMod : Nat) (source dest : Buffer) : Option (Nat × Nat) :=
  bufferSetPlan sizeMod dest (measuredLength sizeMod source)

theorem HeaderKnown.announced (known : HeaderKnown source) :
    frameHeader (byteAt source.data) source.data.length =
      some (statedLength (byteAt source.data) % 2 ^ 32, statedHeader (byteAt source.data)) := by
  have two_le : 2 ≤ source.data.length := known.two_le
  have header_le : statedHeader (byteAt source.data) ≤ source.data.length := known.header_le
  rw [frameHeader_eq_stated _ two_le, if_neg (Nat.not_lt.mpr header_le)]

/-- Once the lengths are known, what is read are the bytes to copy and the key. -/
theorem HeaderKnown.getFrameChecked_eq (known : HeaderKnown source) (large : 2 ^ 32 ≤ sizeMod)
    (dest : Buffer) :
    getFrameChecked sizeMod source dest =
      (bufferSetDataFrom sizeMod dest
        (fun index => source.data[statedStart (byteAt source.data) + index]?)
        (measuredLength sizeMod source)).bind fun outcome =>
          match outcome with
          | (dest, false) => some (.error dest)
          | (dest, true) =>
              if source.length < measuredSize sizeMod source then
                some (.building dest)
              else
                (if byteAt source.data 1 &&& 0x80 ≠ 0 then
                  unmaskFetched (fun index =>
                    source.data[statedHeader (byteAt source.data) + index]?) 0 dest.data
                else some dest.data).map fun data =>
                  .ready (byteAt source.data 0 &&& 0x80 ≠ 0) (byteAt source.data 0 &&& 0x0f).toNat
                    (byteAt source.data 1 &&& 0x80 ≠ 0)
                    (bufferRemoveData source (measuredSize sizeMod source)) { dest with data } := by
  have two_le : 2 ≤ source.data.length := known.two_le
  have checked := frameHeaderFrom_eq (fun index inside => fetch_eq_byteAt inside) two_le
  have plain := known.plain
  have header_small := statedHeader_le (byteAt source.data)
  have start : (if byteAt source.data 1 &&& 0x80 ≠ 0 then
      sizeAdd sizeMod (statedHeader (byteAt source.data)) 4
      else statedHeader (byteAt source.data)) = statedStart (byteAt source.data) := by
    rw [sizeAdd_of_lt (by omega)]
    rfl
  rw [known.announced] at checked
  simp only [getFrameChecked, if_neg (Nat.not_lt.mpr known.two_le),
    fetch_eq_byteAt (show 0 < source.data.length by omega),
    fetch_eq_byteAt (show 1 < source.data.length by omega), Option.bind_some, plain, ne_eq,
    not_true_eq_false, if_false]
  rw [show frameHeaderFrom (fun index => source.data[index]?) source.length = _ from checked]
  simp only [Option.bind_some, decide_eq_true_eq]
  rw [start, ← measuredLength]
  rfl

/-- When the copy fails, nothing is read of it. -/
theorem HeaderKnown.of_refused (known : HeaderKnown source) (large : 2 ^ 32 ≤ sizeMod)
    {dest : Buffer} (refused : copyPlan sizeMod source dest = none) :
    (∀ heap, getFrame sizeMod heap source dest = .error (bufferClear dest)) ∧
      getFrameChecked sizeMod source dest = some (.error (bufferClear dest)) := by
  unfold copyPlan at refused
  constructor
  · intro heap
    rw [getFrame_of_announced heap (Or.inr large) known.two_le known.plain known.announced,
      bufferSetMemory, ← measuredLength, refused]
  · rw [known.getFrameChecked_eq large, bufferSetDataFrom, refused]
    rfl

/-- What the code computes once the lengths are known and the copy does not fail. -/
theorem HeaderKnown.of_copied (known : HeaderKnown source) (large : 2 ^ 32 ≤ sizeMod)
    {dest : Buffer} {copied capacity : Nat}
    (plan : copyPlan sizeMod source dest = some (copied, capacity)) :
    (∀ heap, getFrame sizeMod heap source dest =
        let stored : Buffer :=
          { dest with
            data := readBytes heap source.data (statedStart (byteAt source.data)) copied
            capacity }
        if source.length < measuredSize sizeMod source then .building stored
        else
          .ready (byteAt source.data 0 &&& 0x80 ≠ 0) (byteAt source.data 0 &&& 0x0f).toNat
            (byteAt source.data 1 &&& 0x80 ≠ 0)
            (bufferRemoveData source (measuredSize sizeMod source))
            (if byteAt source.data 1 &&& 0x80 ≠ 0 then
              { stored with
                data := unmask stored.data fun index =>
                  readByte heap source.data (statedHeader (byteAt source.data) + index) }
            else stored)) ∧
      getFrameChecked sizeMod source dest =
        (copyBytes (fun index => source.data[statedStart (byteAt source.data) + index]?)
          copied).bind fun bytes =>
            if source.length < measuredSize sizeMod source then
              some (.building { dest with data := bytes, capacity })
            else
              (if byteAt source.data 1 &&& 0x80 ≠ 0 then
                unmaskFetched (fun index =>
                  source.data[statedHeader (byteAt source.data) + index]?) 0 bytes
              else some bytes).map fun data =>
                .ready (byteAt source.data 0 &&& 0x80 ≠ 0) (byteAt source.data 0 &&& 0x0f).toNat
                  (byteAt source.data 1 &&& 0x80 ≠ 0)
                  (bufferRemoveData source (measuredSize sizeMod source))
                  { dest with data, capacity } := by
  unfold copyPlan at plan
  constructor
  · intro heap
    rw [getFrame_of_announced heap (Or.inr large) known.two_le known.plain known.announced,
      bufferSetMemory, ← measuredLength, plan]
    rfl
  · rw [known.getFrameChecked_eq large, bufferSetDataFrom, plan]
    simp only [Option.bind_map]
    rfl

/-- A frame is reported only when its lengths are known. -/
theorem HeaderKnown.of_ready {heap : Heap} {dest source' dest' : Buffer} {fin mask : Bool}
    {opcode : Nat}
    (ready : getFrame sizeMod heap source dest = .ready fin opcode mask source' dest') :
    HeaderKnown source := by
  by_cases short : source.length < 2
  · simp [getFrame, short] at ready
  have two_le : 2 ≤ source.length := by omega
  have byte₀ := readByte_eq_byteAt heap
    (show 0 < source.data.length from Nat.lt_of_lt_of_le (by decide) two_le)
  by_cases reserved : byteAt source.data 0 &&& 0x70 = 0
  · refine ⟨two_le, reserved, ?_⟩
    by_contra missing
    have agree : ∀ index < source.length,
        readByte heap source.data index = byteAt source.data index :=
      fun index inside => readByte_eq_byteAt heap inside
    have header : frameHeader (readByte heap source.data) source.length = none := by
      rw [frameHeader_congr _ agree two_le, frameHeader_eq_stated _ two_le, if_pos (by omega)]
    simp [getFrame, short, byte₀, reserved, header] at ready
  · simp [getFrame, short, byte₀, reserved] at ready

end Measured

/-- A frame which is reported has the size which its header states, and its payload is in the
destination. -/
def ReportsTruly (sizeMod : Nat) (heap : Heap) (source dest : Buffer) : Prop :=
  ∀ fin opcode mask source' dest',
    getFrame sizeMod heap source dest = .ready fin opcode mask source' dest' →
      statedLength (byteAt source.data) < sizeMod ∧
        source'.length + (statedStart (byteAt source.data) + statedLength (byteAt source.data)) =
          source.length ∧
        dest'.length = statedLength (byteAt source.data) ∧
        dest'.data = (frameAt source.data (statedLength (byteAt source.data))
          (statedHeader (byteAt source.data))).payload

/-- A frame which looks complete to `get_frame`, and whose copy does not fail, states a length below
2^31; or the code computes with the stated length, which the destination already has room for. -/
def Measurable (sizeMod : Nat) (source dest : Buffer) : Prop :=
  measuredSize sizeMod source ≤ source.length → (copyPlan sizeMod source dest).isSome = true →
    statedLength (byteAt source.data) < 2 ^ 31 ∨
      measuredLength sizeMod source = statedLength (byteAt source.data) ∧
        statedStart (byteAt source.data) + statedLength (byteAt source.data) < sizeMod ∧
        statedLength (byteAt source.data) ≤ dest.capacity

section

variable {sizeMod : Nat} {source dest : Buffer} {heap : Heap}

theorem statedStart_le (byte : Nat → UInt8) : statedStart byte ≤ 14 := by
  have header_le := statedHeader_le byte
  have start_le := payloadStart_le byte (statedHeader byte)
  unfold statedStart
  omega

/-- A frame which is measured as it is stated, beyond 2^31 bytes, is measured without wrapping. -/
theorem measuredLength_eq_of_size (large : 2 ^ 32 ≤ sizeMod)
    (long : 2 ^ 31 ≤ statedLength (byteAt source.data))
    (same : measuredSize sizeMod source =
      statedStart (byteAt source.data) + statedLength (byteAt source.data)) :
    measuredLength sizeMod source = statedLength (byteAt source.data) ∧
      sizeMod - 2 ^ 31 ≤ measuredLength sizeMod source := by
  have start_le := statedStart_le (byteAt source.data)
  have bits := Nat.mod_lt (statedLength (byteAt source.data)) (show 0 < 2 ^ 32 by decide)
  have bounded := intToSize_lt large bits
  have below := Nat.mod_le (statedLength (byteAt source.data)) (2 ^ 32)
  unfold measuredSize measuredLength at *
  by_cases negative : statedLength (byteAt source.data) % 2 ^ 32 < 2 ^ 31
  · rw [intToSize_of_lt _ negative, Nat.mod_eq_of_lt (by omega)] at same
    omega
  have extended : intToSize sizeMod (statedLength (byteAt source.data) % 2 ^ 32) =
      statedLength (byteAt source.data) % 2 ^ 32 + (sizeMod - 2 ^ 32) := if_neg negative
  by_cases wraps : statedStart (byteAt source.data) +
      intToSize sizeMod (statedLength (byteAt source.data) % 2 ^ 32) < sizeMod
  · rw [Nat.mod_eq_of_lt wraps] at same
    omega
  · rw [Nat.mod_eq_sub_mod (by omega), Nat.mod_eq_of_lt (by omega)] at same
    omega

/-- A frame which is reported truly has lengths which the code can handle. -/
theorem HeaderKnown.measurable (known : HeaderKnown source) (large : 2 ^ 32 ≤ sizeMod)
    (unlimited : dest.maxLength = 0) (truly : ReportsTruly sizeMod heap source dest) :
    Measurable sizeMod source dest := by
  intro complete copies
  obtain ⟨⟨copied, capacity⟩, plan⟩ := Option.isSome_iff_exists.mp copies
  have outcome := (known.of_copied large plan).1 heap
  dsimp only at outcome
  rw [if_neg (Nat.not_lt.mpr complete)] at outcome
  obtain ⟨-, removed, stored_length, -⟩ := truly _ _ _ _ _ outcome
  have copied_eq : copied = statedLength (byteAt source.data) := by
    rw [← stored_length]
    split_ifs <;> simp [Buffer.length]
  have size_eq : measuredSize sizeMod source =
      statedStart (byteAt source.data) + statedLength (byteAt source.data) := by
    simp only [Buffer.length, bufferRemoveData_data, List.length_drop] at removed complete
    omega
  by_cases short : statedLength (byteAt source.data) < 2 ^ 31
  · exact Or.inl short
  obtain ⟨measured_eq, measured_ge⟩ :=
    measuredLength_eq_of_size large (Nat.le_of_not_lt short) size_eq
  have whole := bufferSetPlan_complete large unlimited
    (intToSize_lt large (Nat.mod_lt _ (by decide))) plan
  obtain reserved | grown := whole.1 (copied_eq.trans measured_eq.symm)
  · refine Or.inr ⟨measured_eq, ?_, ?_⟩
    · have below := Nat.mod_lt (statedStart (byteAt source.data) +
        measuredLength sizeMod source) (show 0 < sizeMod by omega)
      rw [← size_eq]
      exact below
    · rw [← measured_eq]
      exact reserved
  · unfold measuredLength at measured_ge
    omega

/-- A frame whose lengths the code can handle is reported truly. -/
theorem reportsTruly_of_measurable (large : 2 ^ 32 ≤ sizeMod) (unlimited : dest.maxLength = 0)
    (measurable : HeaderKnown source → Measurable sizeMod source dest) :
    ReportsTruly sizeMod heap source dest := by
  intro fin opcode mask source' dest' ready
  have known := HeaderKnown.of_ready ready
  have start_le := statedStart_le (byteAt source.data)
  cases plan : copyPlan sizeMod source dest with
  | none =>
      rw [(known.of_refused large plan).1 heap] at ready
      cases ready
  | some lengths =>
      obtain ⟨copied, capacity⟩ := lengths
      have outcome := (known.of_copied large plan).1 heap
      dsimp only at outcome
      by_cases incomplete : source.length < measuredSize sizeMod source
      · rw [if_pos incomplete, ready] at outcome
        cases outcome
      rw [if_neg incomplete, ready] at outcome
      have handled := measurable known (Nat.le_of_not_lt incomplete)
        (Option.isSome_iff_exists.mpr ⟨_, plan⟩)
      have small := intToSize_lt large
        (Nat.mod_lt (statedLength (byteAt source.data)) (show 0 < 2 ^ 32 by decide))
      have whole := (bufferSetPlan_complete large unlimited small plan).2
      rw [← measuredLength] at whole
      have exact_lengths : measuredLength sizeMod source = statedLength (byteAt source.data) ∧
          statedStart (byteAt source.data) + statedLength (byteAt source.data) < sizeMod ∧
          copied = statedLength (byteAt source.data) := by
        obtain short | ⟨measured_eq, fits, reserved⟩ := handled
        · have measured_eq : measuredLength sizeMod source =
              statedLength (byteAt source.data) := by
            rw [measuredLength, Nat.mod_eq_of_lt (by omega), intToSize_of_lt _ short]
          exact ⟨measured_eq, by omega, (whole (Or.inr (by omega))).trans measured_eq⟩
        · exact ⟨measured_eq, fits, (whole (Or.inl (by omega))).trans measured_eq⟩
      obtain ⟨measured_eq, fits, rfl⟩ := exact_lengths
      unfold measuredSize at incomplete outcome
      rw [measured_eq, Nat.mod_eq_of_lt fits] at incomplete outcome
      have present : statedStart (byteAt source.data) + statedLength (byteAt source.data) ≤
          source.data.length := Nat.le_of_not_lt incomplete
      rw [readBytes_of_le heap present] at outcome
      injection outcome with _ _ _ source_eq dest_eq
      refine ⟨by omega, ?_, ?_, ?_⟩
      · rw [source_eq]
        simp only [Buffer.length, bufferRemoveData_data, List.length_drop]
        omega
      · have stored_length : ((source.data.drop (statedStart (byteAt source.data))).take
            (statedLength (byteAt source.data))).length = statedLength (byteAt source.data) := by
          rw [List.length_take, List.length_drop]
          omega
        rw [dest_eq]
        split_ifs <;> simp only [Buffer.length, length_unmask, stored_length]
      · rw [dest_eq, frameAt]
        split_ifs with masked
        · dsimp only
          rw [unmask_key heap masked present]
          rfl
        · rfl

end

/-- `get_frame` reports frames truly exactly when the lengths it cannot handle do not occur. -/
theorem reportsTruly_iff {width : Nat} (wide : 32 ≤ width) (heap : Heap) (source : Buffer)
    {dest : Buffer} (unlimited : dest.maxLength = 0) :
    ReportsTruly (2 ^ width) heap source dest ↔
      (HeaderKnown source → Measurable (2 ^ width) source dest) := by
  have large : 2 ^ 32 ≤ 2 ^ width := Nat.pow_le_pow_right (by decide) wide
  exact ⟨fun truly known => known.measurable large unlimited truly,
    reportsTruly_of_measurable large unlimited⟩

/-- The frame `Hello` is reported truly on a machine of 32 bits. -/
theorem reportsTruly_helloFrame :
    ReportsTruly (2 ^ 32) (fun _ _ => 0) { bufferCreate 0 with data := helloFrame.bytes }
      (bufferCreate 0) := by
  refine (reportsTruly_iff (Nat.le_refl 32) _ _ (bufferCreate_maxLength 0)).mpr fun _ _ _ => ?_
  exact Or.inl (by decide +kernel)

/-- The first bytes of a frame whose header states 2^32 + 1 bytes. -/
def longHeader : Buffer :=
  { bufferCreate 0 with
    data := [0x81, 0x7f, 0x00, 0x00, 0x00, 0x01, 0x00, 0x00, 0x00, 0x01, 0x61] }

/-- A frame of 2^32 + 1 bytes is reported when its first byte has arrived. -/
theorem not_reportsTruly_longHeader :
    ¬ ReportsTruly (2 ^ 64) (fun _ _ => 0) longHeader (bufferCreate 0) := by
  intro truly
  have outcome : getFrame (2 ^ 64) (fun _ _ => 0) longHeader (bufferCreate 0) =
      .ready true 1 false { bufferCreate 0 with data := [] }
        { bufferCreate 0 with data := [0x61] } := by
    decide +kernel
  obtain ⟨-, -, length_eq, -⟩ := truly _ _ _ _ _ outcome
  exact absurd length_eq (by decide +kernel)

/-! ## The bytes which are read -/

/-- `get_frame` reads nothing at or beyond the length of the source, so its outcome does not depend
on what lies there. -/
def ReadsReceived (sizeMod : Nat) (source dest : Buffer) : Prop :=
  ∃ outcome, getFrameChecked sizeMod source dest = some outcome ∧
    ∀ heap, getFrame sizeMod heap source dest = outcome

section Checked

variable {sizeMod : Nat} {source : Buffer}

/-- Before the lengths are known only the header is read. -/
theorem readsReceived_of_not_known (dest : Buffer) (unknown : ¬ HeaderKnown source) :
    ReadsReceived sizeMod source dest := by
  by_cases short : source.length < 2
  · exact ⟨.building dest, by simp [getFrameChecked, short], fun heap => by simp [getFrame, short]⟩
  have two_le : 2 ≤ source.data.length := by
    simp only [Buffer.length] at short
    omega
  have fetch₀ := fetch_eq_byteAt (show 0 < source.data.length by omega)
  have fetch₁ := fetch_eq_byteAt (show 1 < source.data.length by omega)
  have byte₀ := fun heap => readByte_eq_byteAt heap (show 0 < source.data.length by omega)
  by_cases reserved : byteAt source.data 0 &&& 0x70 = 0
  · have missing : frameHeader (byteAt source.data) source.data.length = none := by
      rw [frameHeader_eq_stated _ two_le, if_pos]
      by_contra header_le
      exact unknown ⟨two_le, reserved, Nat.le_of_not_lt header_le⟩
    have checked := frameHeaderFrom_eq (fun index inside => fetch_eq_byteAt inside) two_le
    rw [missing] at checked
    refine ⟨.building dest, ?_, fun heap => ?_⟩
    · simp only [getFrameChecked, Buffer.length] at short ⊢
      rw [if_neg short, fetch₀, fetch₁, checked]
      simp [reserved]
    · have agree : ∀ index < source.data.length,
          readByte heap source.data index = byteAt source.data index :=
        fun index inside => readByte_eq_byteAt heap inside
      have header := frameHeader_congr _ agree two_le
      rw [missing] at header
      simp [getFrame, Buffer.length, byte₀, reserved, header]
  · refine ⟨.error dest, ?_, fun heap => ?_⟩
    · simp only [getFrameChecked, if_neg short, fetch₀]
      simp [reserved]
    · simp [getFrame, short, byte₀, reserved]

/-- The bytes which are copied have been received. -/
def CopiesReceived (sizeMod : Nat) (source dest : Buffer) : Prop :=
  ∀ copied capacity, copyPlan sizeMod source dest = some (copied, capacity) →
    copied = 0 ∨ statedStart (byteAt source.data) + copied ≤ source.length

/-- The copied bytes do not depend on the heap when they have been received. -/
theorem readBytes_of_received (heap : Heap) {data : List UInt8} {offset copied : Nat}
    (received : copied = 0 ∨ offset + copied ≤ data.length) :
    readBytes heap data offset copied = (data.drop offset).take copied := by
  obtain rfl | inside := received
  · rfl
  · exact readBytes_of_le heap inside

theorem copyBytes_of_received {data : List UInt8} {offset copied : Nat}
    (received : copied = 0 ∨ offset + copied ≤ data.length) :
    copyBytes (fun index => data[offset + index]?) copied =
      some ((data.drop offset).take copied) := by
  obtain rfl | inside := received
  · rfl
  · rw [← readBytes_of_le (fun _ _ => 0) inside]
    refine copyBytes_of_forall fun index bound => ?_
    rw [readByte_of_lt _ (show offset + index < data.length by omega)]
    exact List.getElem?_eq_getElem _

/-- A key which is needed has been received. -/
theorem unmask_received {data bytes : List UInt8} {headerLength : Nat}
    (received : bytes = [] ∨ headerLength + 4 ≤ data.length) :
    unmaskFetched (fun index => data[headerLength + index]?) 0 bytes =
        some (unmask bytes fun index => byteAt data (headerLength + index)) ∧
      ∀ heap, (unmask bytes fun index => readByte heap data (headerLength + index)) =
        unmask bytes fun index => byteAt data (headerLength + index) := by
  obtain rfl | inside := received
  · exact ⟨rfl, fun _ => rfl⟩
  · exact ⟨unmaskFetched_eq (fun index bound => fetch_eq_byteAt (by omega)) (by decide) bytes,
      fun heap => unmaskFrom_congr (fun index bound => readByte_eq_byteAt heap (by omega))
        (by decide) bytes⟩

theorem HeaderKnown.copyReceived_iff (known : HeaderKnown source) (large : 2 ^ 32 ≤ sizeMod)
    (dest : Buffer) : ReadsReceived sizeMod source dest ↔ CopiesReceived sizeMod source dest := by
  cases plan : copyPlan sizeMod source dest with
  | none =>
      obtain ⟨outcome, checked⟩ := known.of_refused large plan
      refine iff_of_true ⟨_, checked, outcome⟩ fun copied capacity copies => ?_
      rw [plan] at copies
      cases copies
  | some lengths =>
      obtain ⟨copied, capacity⟩ := lengths
      obtain ⟨outcome, checked⟩ := known.of_copied large plan
      have copies_iff : CopiesReceived sizeMod source dest ↔
          copied = 0 ∨ statedStart (byteAt source.data) + copied ≤ source.length := by
        refine ⟨fun copies => copies _ _ plan, fun received other capacity' same => ?_⟩
        rw [plan] at same
        obtain ⟨rfl, -⟩ := Prod.mk.inj (Option.some.inj same)
        exact received
      rw [copies_iff]
      constructor
      · rintro ⟨result, result_eq, -⟩
        rw [checked] at result_eq
        obtain ⟨bytes, fetched, -⟩ := Option.bind_eq_some_iff.mp result_eq
        have present :=
          (copyBytes_isSome_iff _ _).mp (Option.isSome_iff_exists.mpr ⟨bytes, fetched⟩)
        by_cases none_copied : copied = 0
        · exact Or.inl none_copied
        · have last := present (copied - 1) (by omega)
          have inside : statedStart (byteAt source.data) + (copied - 1) < source.data.length := by
            simpa using last
          exact Or.inr (show _ ≤ source.data.length by omega)
      · intro received
        have bytes_eq := fun heap => readBytes_of_received heap received
        rw [copyBytes_of_received received, Option.bind_some] at checked
        simp only [bytes_eq] at outcome
        generalize copy_eq : (source.data.drop (statedStart (byteAt source.data))).take copied =
          bytes at outcome checked
        by_cases incomplete : source.length < measuredSize sizeMod source
        · rw [if_pos incomplete] at checked
          exact ⟨_, checked, fun heap => by rw [outcome heap, if_pos incomplete]⟩
        rw [if_neg incomplete] at checked
        by_cases masked : byteAt source.data 1 &&& 0x80 ≠ 0
        · have key_received : bytes = [] ∨
              statedHeader (byteAt source.data) + 4 ≤ source.data.length := by
            refine received.imp (fun none_copied => ?_) fun inside => ?_
            · rw [← copy_eq, none_copied, List.take_zero]
            · rw [statedStart, payloadStart, if_pos masked] at inside
              exact Nat.le_trans (Nat.le_add_right _ _) inside
          obtain ⟨fetched, same⟩ := unmask_received key_received
          rw [if_pos masked, fetched] at checked
          exact ⟨_, checked, fun heap => by
            simp only [outcome heap, if_neg incomplete, if_pos masked, same heap]⟩
        · rw [if_neg masked] at checked
          exact ⟨_, checked, fun heap => by
            simp only [outcome heap, if_neg incomplete, if_neg masked]⟩

/-- `get_frame` reads only received bytes exactly when the bytes it copies have been received. -/
theorem readsReceived_iff {width : Nat} (wide : 32 ≤ width) (source dest : Buffer) :
    ReadsReceived (2 ^ width) source dest ↔
      (HeaderKnown source → CopiesReceived (2 ^ width) source dest) := by
  have large : 2 ^ 32 ≤ 2 ^ width := Nat.pow_le_pow_right (by decide) wide
  by_cases known : HeaderKnown source
  · rw [known.copyReceived_iff large]
    exact ⟨fun received _ => received, fun received => received known⟩
  · exact ⟨fun _ known' => absurd known' known, fun _ => readsReceived_of_not_known dest known⟩

end Checked

/-- The complete frame `Hello` is read within its bounds, also with bytes behind it. -/
theorem readsReceived_helloFrame :
    ReadsReceived (2 ^ 64) { bufferCreate 0 with data := helloFrame.bytes ++ [0x81] }
      (bufferCreate 0) :=
  (readsReceived_iff (by decide) _ _).mpr fun _ copied capacity plan => by
    have plan_eq : copyPlan (2 ^ 64) { bufferCreate 0 with data := helloFrame.bytes ++ [0x81] }
        (bufferCreate 0) = some (5, 128) := by
      decide +kernel
    obtain ⟨rfl, -⟩ := Prod.mk.inj (Option.some.inj (plan.symm.trans plan_eq))
    exact Or.inr (by decide +kernel)

/-- After the two header bytes of a frame of five bytes, five bytes behind them are read. -/
theorem not_readsReceived_header :
    ¬ ReadsReceived (2 ^ 64)
      (wsmsgAdd (2 ^ 64) (fun _ _ => 0) (wsmsgCreate 0 0) [0x81, 0x05]).1.frameBuffer
      (bufferCreate 0) := by
  rintro ⟨outcome, checked, -⟩
  have failed : getFrameChecked (2 ^ 64)
      (wsmsgAdd (2 ^ 64) (fun _ _ => 0) (wsmsgCreate 0 0) [0x81, 0x05]).1.frameBuffer
      (bufferCreate 0) = none := by
    decide +kernel
  rw [failed] at checked
  cases checked

end Jabsocket
