import Jabsocket.Reference

/-!
# Frames made by the scripts

The test client writes frames with `sendFrame`, and `makewsmessage.py` writes a message as a
sequence of frames.  The server reads back every frame of the test client.  It reads back a
generated message unless one of its frames has 65536 bytes or more: the generator writes the length
of such a frame in two bytes.
-/

namespace Jabsocket

/-! ## Numbers -/

/-- One round of the loop which takes the digits of a number in base 256. -/
def digitRound (state : Nat × List UInt8) : Round (Nat × List UInt8) :=
  if 0 < state.1 then .again (state.1 / 256, UInt8.ofNat (state.1 % 256) :: state.2)
  else .leave state

/-- The digits of a number. -/
def numberBytes (number : Nat) : List UInt8 :=
  (Loop.run digitRound Prod.fst (number, [])).2

/-- `encode_number`. -/
def encodeNumber (number : Nat) : List UInt8 :=
  if (numberBytes number).length = 0 then [0] else numberBytes number

/-- The last bytes of a string. -/
def lastBytes (count : Nat) (bytes : List UInt8) : List UInt8 :=
  bytes.drop (bytes.length - count)

/-- `serialize`. -/
def serialize (number count : Nat) : List UInt8 :=
  lastBytes count (List.replicate count 0 ++ numberBytes number)

/-- `encode_length`. -/
def encodeLength (length : Nat) : List UInt8 :=
  if length < 126 then []
  else if length < 2 * 16 then encodeNumber length
  else lastBytes 8 (List.replicate 8 0 ++ encodeNumber length)

theorem digitRound_decreasing : Loop.Decreasing digitRound Prod.fst := by
  intro state next again
  unfold digitRound at again
  split_ifs at again with positive
  injection again with next_eq
  rw [← next_eq]
  exact Nat.div_lt_self positive (by decide)

theorem run_digitRound (number : Nat) (digits : List UInt8) :
    (Loop.run digitRound Prod.fst (number, digits)).2 = numberBytes number ++ digits := by
  induction number using Nat.strongRecOn generalizing digits with
  | _ number ih =>
      by_cases positive : 0 < number
      · have round : ∀ digits, digitRound (number, digits) =
            .again (number / 256, UInt8.ofNat (number % 256) :: digits) :=
          fun digits => if_pos positive
        have smaller := Nat.div_lt_self positive (by decide : 1 < 256)
        rw [numberBytes, Loop.run_of_again digitRound_decreasing (round digits),
          Loop.run_of_again digitRound_decreasing (round []), ih _ smaller, ih _ smaller,
          List.append_assoc, List.singleton_append]
      · have round : ∀ digits, digitRound (number, digits) = .leave (number, digits) :=
          fun digits => if_neg positive
        rw [numberBytes, Loop.run_of_leave _ (round digits), Loop.run_of_leave _ (round [])]
        rfl

theorem numberBytes_of_pos {number : Nat} (positive : 0 < number) :
    numberBytes number = numberBytes (number / 256) ++ [UInt8.ofNat number] := by
  have round : digitRound (number, []) =
      .again (number / 256, [UInt8.ofNat (number % 256)]) := if_pos positive
  rw [numberBytes, Loop.run_of_again digitRound_decreasing round, run_digitRound]
  congr 2
  exact UInt8.toNat_inj.mp (by simp)

theorem numberBytes_zero : numberBytes 0 = [] := rfl

/-- Padded and cut, the digits of a number are its low bytes. -/
theorem serialize_eq (number count : Nat) : serialize number count = bigEndian count number := by
  induction count generalizing number with
  | zero =>
      rw [serialize, lastBytes, Nat.sub_zero, List.drop_length]
      rfl
  | succ count ih =>
      rw [bigEndian, ← ih]
      by_cases positive : 0 < number
      · have shape : List.replicate (count + 1) 0 ++ numberBytes number =
            (0 :: (List.replicate count 0 ++ numberBytes (number / 256))) ++
              [UInt8.ofNat number] := by
          rw [numberBytes_of_pos positive, List.replicate_succ, ← List.append_assoc]
          rfl
        have enough : count ≤ (List.replicate count 0 ++ numberBytes (number / 256)).length := by
          simp
        rw [serialize, serialize, lastBytes, lastBytes, shape]
        generalize List.replicate count 0 ++ numberBytes (number / 256) = digits at enough
        have inside : (0 :: digits ++ [UInt8.ofNat number]).length - (count + 1) ≤
            (0 :: digits).length := by
          simp
        rw [List.drop_append_of_le_length inside]
        congr 1
        rw [List.length_append, List.length_cons, List.length_singleton,
          show digits.length + 1 + 1 - (count + 1) = digits.length - count + 1 by omega,
          List.drop_succ_cons]
      · obtain rfl : number = 0 := by omega
        rw [Nat.zero_div, serialize, serialize, numberBytes_zero, List.append_nil, List.append_nil,
          lastBytes, lastBytes, List.length_replicate, List.length_replicate, Nat.sub_self,
          Nat.sub_self, List.drop_zero, List.drop_zero, List.replicate_succ']
        rfl

theorem encodeLength_eq {length : Nat} (long : 126 ≤ length) :
    encodeLength length = bigEndian 8 length := by
  have digits : encodeNumber length = numberBytes length := by
    rw [encodeNumber, if_neg]
    rw [numberBytes_of_pos (by omega), List.length_append]
    simp
  rw [encodeLength, if_neg (by omega), if_neg (by omega), digits]
  exact serialize_eq length 8

/-! ## Masks -/

/-- Positions in a mask are written as numbers. -/
instance neZeroFour : @NeZero Nat Zero.ofOfNat0 4 := ⟨by decide⟩

/-- The loop which masks data, from a position in the mask. -/
def maskFrom (mask : Fin 4 → UInt8) (index : Nat) : List UInt8 → List UInt8
  | [] => []
  | byte :: data => (mask (Fin.ofNat 4 index) ^^^ byte) :: maskFrom mask ((index + 1) % 4) data

@[simp] theorem length_maskFrom (mask : Fin 4 → UInt8) (index : Nat) (data : List UInt8) :
    (maskFrom mask index data).length = data.length := by
  induction data generalizing index with
  | nil => rfl
  | cons byte data ih => rw [maskFrom, List.length_cons, List.length_cons, ih]

theorem maskFrom_mapIdx (mask : Fin 4 → UInt8) (index : Nat) (data : List UInt8) :
    (maskFrom mask index data).mapIdx
      (fun position byte => byte ^^^ mask (Fin.ofNat 4 (index + position))) = data := by
  induction data generalizing index with
  | nil => rfl
  | cons byte data ih =>
      have wraps : ∀ position, Fin.ofNat 4 ((index + 1) % 4 + position) =
          Fin.ofNat 4 (index + (position + 1)) := by
        intro position
        rw [Fin.ext_iff, Fin.val_ofNat, Fin.val_ofNat]
        omega
      have later := ih ((index + 1) % 4)
      simp only [wraps] at later
      rw [maskFrom, List.mapIdx_cons, Nat.add_zero, UInt8.xor_comm (mask _) byte, UInt8.xor_assoc,
        UInt8.xor_self, UInt8.xor_zero, later]

/-! ## `sendFrame` -/

/-- What is sent behind the length: the data, or the mask and the masked data. -/
def maskedData (data : List UInt8) : Option (Fin 4 → UInt8) → List UInt8
  | some mask => List.ofFn mask ++ maskFrom mask 0 data
  | none => data

/-- `sendFrame`: the bytes which are sent. -/
def sendFrame (data : List UInt8) (fin : Bool) (opcode : Nat) (mask : Option (Fin 4 → UInt8)) :
    List UInt8 :=
  let masked := if mask.isSome then 0x80 else 0
  let lengthBytes :=
    if data.length < 126 then [UInt8.ofNat (masked + data.length)]
    else
      let lengthEnc := encodeLength data.length
      UInt8.ofNat (masked + if lengthEnc.length = 2 then 126 else 127) :: lengthEnc
  UInt8.ofNat ((if fin then 0x80 else 0) + opcode) :: (lengthBytes ++ maskedData data mask)

/-- The length form which the test client uses. -/
def clientForm (length : Nat) : LengthForm :=
  if length < 126 then .seven else .sixtyFour

theorem clientForm_fits {length : Nat} (small : length < 2 ^ 32) :
    (clientForm length).Fits length := by
  unfold clientForm
  split_ifs with short
  · exact Nat.le_of_lt_succ short
  · exact Nat.lt_trans small (by decide)

/-- The data as it is sent. -/
def maskedBody (mask : Option (Fin 4 → UInt8)) (data : List UInt8) : List UInt8 :=
  match mask with
  | some mask => maskFrom mask 0 data
  | none => data

@[simp] theorem length_maskedBody (mask : Option (Fin 4 → UInt8)) (data : List UInt8) :
    (maskedBody mask data).length = data.length := by
  cases mask with
  | none => rfl
  | some mask => exact length_maskFrom mask 0 data

/-- A masked frame carries its data. -/
theorem WireFrame.payload_masked {frame : WireFrame} {data : List UInt8}
    (body_eq : frame.body = maskedBody frame.key data) : frame.payload = data := by
  unfold WireFrame.payload
  cases key_eq : frame.key with
  | none =>
      rw [key_eq] at body_eq
      exact body_eq
  | some mask =>
      rw [key_eq] at body_eq
      have unmasked := maskFrom_mapIdx mask 0 data
      simp only [Nat.zero_add] at unmasked
      simp only [body_eq]
      exact unmasked

/-- A frame of the test client, as RFC 6455 has it. -/
def clientFrame (data : List UInt8) (fin : Bool) (opcode : Fin 16)
    (mask : Option (Fin 4 → UInt8)) (small : (maskedBody mask data).length < 2 ^ 32) :
    WireFrame where
  fin
  opcode
  key := mask
  form := clientForm (maskedBody mask data).length
  body := maskedBody mask data
  fits := clientForm_fits small
  small

theorem clientFrame_bytes (data : List UInt8) (fin : Bool) (opcode : Fin 16)
    (mask : Option (Fin 4 → UInt8)) (small : (maskedBody mask data).length < 2 ^ 32) :
    (clientFrame data fin opcode mask small).bytes = sendFrame data fin opcode mask := by
  have behind : (clientFrame data fin opcode mask small).keyBytes ++ maskedBody mask data =
      maskedData data mask := by
    cases mask <;> rfl
  have bytes_eq : (clientFrame data fin opcode mask small).bytes =
      UInt8.ofNat ((if fin then 0x80 else 0) + opcode) ::
        UInt8.ofNat ((if mask.isSome then 0x80 else 0) +
          (clientForm (maskedBody mask data).length).field (maskedBody mask data).length) ::
            ((clientForm (maskedBody mask data).length).extended (maskedBody mask data).length ++
              ((clientFrame data fin opcode mask small).keyBytes ++ maskedBody mask data)) := rfl
  rw [bytes_eq, behind, length_maskedBody, sendFrame, clientForm]
  by_cases short : data.length < 126
  · simp only [if_pos short]
    rfl
  · have eight : (bigEndian 8 data.length).length ≠ 2 := by simp
    simp only [if_neg short, encodeLength_eq (Nat.le_of_not_lt short), if_neg eight]
    rfl

/-- The server reads back every frame of the test client with fewer than 2^31 bytes of data, into a
buffer which has room for them. -/
theorem server_reads_sendFrame (heap : Heap) {data : List UInt8} (small : data.length < 2 ^ 31)
    (fin : Bool) (opcode : Fin 16) (mask : Option (Fin 4 → UInt8)) (rest : List UInt8)
    {source dest : Buffer} (room : dest.maxLength = 0 ∨ data.length ≤ dest.maxLength)
    (received : source.data = sendFrame data fin opcode mask ++ rest) :
    ∃ stored : Buffer,
      getFrame (2 ^ 64) heap source dest =
          .ready fin opcode mask.isSome { source with data := rest } stored ∧
        stored.data = data := by
  have short : (maskedBody mask data).length < 2 ^ 31 := by rwa [length_maskedBody]
  have small' : (maskedBody mask data).length < 2 ^ 32 := Nat.lt_trans short (by decide)
  have found := (clientFrame data fin opcode mask small').scanFrame_bytes rest
  have moderate := @WireFrame.moderate_bytes (clientFrame data fin opcode mask small') short rest
  rw [clientFrame_bytes, ← received] at found moderate
  obtain ⟨stored, ready, data_eq, -⟩ := getFrame_of_item heap moderate.honest dest found
  have payload_eq : (clientFrame data fin opcode mask small').payload = data :=
    WireFrame.payload_masked rfl
  refine ⟨stored, ready, ?_⟩
  rw [data_eq, WireFrame.decoded_payload, payload_eq]
  exact Buffer.clip_of_le room

/-- A masked text frame with the first bytes of the next frame behind it. -/
def sentText : List UInt8 := [0x81, 0x83, 0x4b, 0xfc, 0xec, 0x7b, 0x77, 0x8f, 0xd2, 0x89, 0x00]

theorem server_reads_sendFrame_text :
    ∃ stored : Buffer,
      getFrame (2 ^ 64) (fun _ _ => 0xff) { bufferCreate 0 with data := sentText }
          (bufferCreate 3) =
          .ready true 1 true { bufferCreate 0 with data := [0x89, 0x00] } stored ∧
        stored.data = [0x3c, 0x73, 0x3e] :=
  @server_reads_sendFrame (fun _ _ => 0xff) [0x3c, 0x73, 0x3e] (by decide) true 1
    (some ![0x4b, 0xfc, 0xec, 0x7b]) [0x89, 0x00] { bufferCreate 0 with data := sentText }
    (bufferCreate 3) (Or.inr (by decide)) (by decide)

/-! ## Messages from the generator -/

/-- The frame types of the generator. -/
inductive FrameType where
  | text
  | binary
  | close
  | ping
  | pong
  deriving DecidableEq, Repr

/-- The opcodes of `generate_frame`. -/
def FrameType.opcode : FrameType → Fin 16
  | text => 1
  | binary => 2
  | close => 8
  | ping => 9
  | pong => 10

/-- `generate_frame`; it masks every frame, as its option `masked` is always present. -/
def generateFrame (data : List UInt8) (fragment : Bool) (mask : Fin 4 → UInt8)
    (type : Option FrameType) : List UInt8 :=
  let opcode := type.elim 0 FrameType.opcode
  let length :=
    if data.length < 126 then (data.length, [])
    else if data.length < 2 <<< (32 - 1) then (126, serialize data.length 2)
    else (127, serialize data.length 8)
  UInt8.ofNat ((if fragment then 0 else 0x80) + opcode) :: UInt8.ofNat (0x80 + length.1) ::
    (length.2 ++ maskedData data (some mask))

/-- The variables of the loop in `main`, and the frames which it has made. -/
structure Generation where
  data : List UInt8
  first : Bool
  index : Nat
  frames : List (List UInt8)

/-- One round of the loop in `main`. -/
def generateRound (maxsize : Nat) (type : FrameType) (masks : Nat → Fin 4 → UInt8)
    (state : Generation) : Round Generation :=
  if 0 < state.data.length then
    let cut :=
      if state.data.length < maxsize then (state.data, [])
      else (state.data.take maxsize, state.data.drop maxsize)
    let frame := generateFrame cut.1 (decide (0 < cut.2.length)) (masks state.index)
      (if state.first then some type else none)
    .again
      { data := cut.2
        first := false
        index := state.index + 1
        frames := state.frames ++ [frame] }
  else .leave state

/-- `main` of the generator: the frames of a message, for the masks which are drawn.  Without the
option `maxsize`, which is zero here, there is one frame. -/
def makeMessage (maxsize : Nat) (type : FrameType) (masks : Nat → Fin 4 → UInt8)
    (data : List UInt8) : List (List UInt8) :=
  if maxsize ≠ 0 then
    (Loop.run (generateRound maxsize type masks) (fun state => state.data.length)
      { data, first := true, index := 0, frames := [] }).frames
  else [generateFrame data false ![0x78, 0x79, 0x7a, 0x74] (some type)]

/-- The length which a frame of the generator announces: two bytes hold it modulo 65536. -/
def generatedLength (length : Nat) : Nat :=
  if length < 126 then length else length % 2 ^ 16

theorem generatedLength_le (length : Nat) : generatedLength length ≤ length := by
  unfold generatedLength
  split_ifs
  · exact Nat.le_refl _
  · exact Nat.mod_le _ _

theorem generatedLength_lt (length : Nat) : generatedLength length < 2 ^ 16 := by
  unfold generatedLength
  split_ifs with short
  · exact Nat.lt_trans short (by decide)
  · exact Nat.mod_lt _ (by decide)

theorem generatedLength_eq {length : Nat} (short : length < 2 ^ 16) :
    generatedLength length = length := by
  unfold generatedLength
  split_ifs
  · rfl
  · exact Nat.mod_eq_of_lt short

theorem bigEndian_two_mod (value : Nat) : bigEndian 2 (value % 2 ^ 16) = bigEndian 2 value := by
  have high : UInt8.ofNat (value % 2 ^ 16 / 256) = UInt8.ofNat (value / 256) :=
    UInt8.toNat_inj.mp (by simp only [UInt8.toNat_ofNat']; omega)
  have low : UInt8.ofNat (value % 2 ^ 16) = UInt8.ofNat value :=
    UInt8.toNat_inj.mp (by simp only [UInt8.toNat_ofNat']; omega)
  simp only [bigEndian, high, low]

theorem maskFrom_take (mask : Fin 4 → UInt8) (index count : Nat) (data : List UInt8) :
    (maskFrom mask index data).take count = maskFrom mask index (data.take count) := by
  induction data generalizing index count with
  | nil => simp [maskFrom]
  | cons byte data ih =>
      cases count with
      | zero => simp [maskFrom]
      | succ count => rw [maskFrom, List.take_succ_cons, List.take_succ_cons, maskFrom, ih]

/-- The opcode of a frame of the generator. -/
def typeOpcode (type : Option FrameType) : Fin 16 :=
  type.elim 0 FrameType.opcode

/-- The length form of the generator. -/
def generatorForm (length : Nat) : LengthForm :=
  if length < 126 then .seven else .sixteen

theorem generatorForm_fits (length : Nat) :
    (generatorForm length).Fits (generatedLength length) := by
  unfold generatorForm generatedLength
  split_ifs with short
  · exact Nat.le_of_lt_succ short
  · exact Nat.mod_lt _ (by decide)

theorem length_take_generated (mask : Fin 4 → UInt8) (data : List UInt8) :
    (maskFrom mask 0 (data.take (generatedLength data.length))).length =
      generatedLength data.length := by
  rw [length_maskFrom, List.length_take_of_le (generatedLength_le _)]

theorem generatedFrame_fits (mask : Fin 4 → UInt8) (data : List UInt8) :
    (generatorForm data.length).Fits
      (maskFrom mask 0 (data.take (generatedLength data.length))).length := by
  rw [length_take_generated]
  exact generatorForm_fits data.length

theorem generatedFrame_small (mask : Fin 4 → UInt8) (data : List UInt8) :
    (maskFrom mask 0 (data.take (generatedLength data.length))).length < 2 ^ 32 := by
  rw [length_take_generated]
  exact Nat.lt_trans (generatedLength_lt _) (by decide)

/-- The frame at the front of what the generator writes. -/
def generatedFrame (data : List UInt8) (fragment : Bool) (mask : Fin 4 → UInt8)
    (type : Option FrameType) : WireFrame where
  fin := !fragment
  opcode := typeOpcode type
  key := some mask
  form := generatorForm data.length
  body := maskFrom mask 0 (data.take (generatedLength data.length))
  fits := generatedFrame_fits mask data
  small := generatedFrame_small mask data

section GeneratedFrame

variable {data : List UInt8} (fragment : Bool) (mask : Fin 4 → UInt8) (type : Option FrameType)

theorem generateFrame_eq (small : data.length < 2 ^ 32) :
    generateFrame data fragment mask type =
      (generatedFrame data fragment mask type).bytes ++
        (maskFrom mask 0 data).drop (generatedLength data.length) := by
  have body_eq : maskFrom mask 0 data =
      maskFrom mask 0 (data.take (generatedLength data.length)) ++
        (maskFrom mask 0 data).drop (generatedLength data.length) := by
    rw [← maskFrom_take, List.take_append_drop]
  have bytes_eq : (generatedFrame data fragment mask type).bytes =
      UInt8.ofNat ((if !fragment then 0x80 else 0) + typeOpcode type) ::
        UInt8.ofNat (0x80 + (generatorForm data.length).field (generatedLength data.length)) ::
          ((generatorForm data.length).extended (generatedLength data.length) ++
            (List.ofFn mask ++ maskFrom mask 0 (data.take (generatedLength data.length)))) := by
    have body_length : (generatedFrame data fragment mask type).body.length =
        generatedLength data.length := length_take_generated mask data
    rw [WireFrame.bytes, WireFrame.secondByte, body_length]
    rfl
  have first_eq : (if !fragment then 0x80 else 0) = if fragment then 0 else 0x80 := by
    cases fragment <;> rfl
  rw [bytes_eq, first_eq, List.cons_append, List.cons_append, List.append_assoc, List.append_assoc,
    ← body_eq, generateFrame, generatorForm]
  by_cases short : data.length < 126
  · simp only [if_pos short, generatedLength]
    rfl
  · have two : data.length < 2 <<< (32 - 1) := small
    simp only [if_neg short, if_pos two, serialize_eq, generatedLength, LengthForm.field,
      LengthForm.extended, bigEndian_two_mod]
    rfl

@[simp] theorem generatedFrame_payload :
    (generatedFrame data fragment mask type).payload =
      data.take (generatedLength data.length) :=
  WireFrame.payload_masked rfl

/-- The scan finds a frame of the generator, or the front of one which is too long. -/
theorem scanFrame_generateFrame (small : data.length < 2 ^ 32) (rest : List UInt8) :
    scanFrame (generateFrame data fragment mask type ++ rest) =
      .item (generatedFrame data fragment mask type).decoded
        ((maskFrom mask 0 data).drop (generatedLength data.length) ++ rest) := by
  rw [generateFrame_eq fragment mask type small, List.append_assoc]
  exact WireFrame.scanFrame_bytes _ _

/-- Two bytes announce no large length. -/
theorem moderate_generateFrame (small : data.length < 2 ^ 32) (rest : List UInt8) :
    Moderate (generateFrame data fragment mask type ++ rest) := by
  rw [generateFrame_eq fragment mask type small, List.append_assoc]
  refine WireFrame.moderate_bytes ?_ _
  exact (length_take_generated mask data).trans_lt
    (Nat.lt_trans (generatedLength_lt _) (by decide))

end GeneratedFrame

/-- What the server reads of a frame of the generator: two bytes hold the length, so of a frame of
65536 bytes or more it reads a part, and takes what is left for the next frame. -/
theorem server_reads_generateFrame (heap : Heap) {data : List UInt8}
    (small : data.length < 2 ^ 32) (fragment : Bool) (mask : Fin 4 → UInt8)
    (type : Option FrameType) (rest : List UInt8) {source dest : Buffer}
    (unlimited : dest.maxLength = 0)
    (received : source.data = generateFrame data fragment mask type ++ rest) :
    ∃ stored : Buffer,
      getFrame (2 ^ 64) heap source dest =
          .ready (!fragment) (typeOpcode type) true
            { source with
              data := (maskFrom mask 0 data).drop (generatedLength data.length) ++ rest } stored ∧
        stored.data = data.take (generatedLength data.length) ∧
        (stored.data = data ↔ data.length < 2 ^ 16) := by
  have found := scanFrame_generateFrame fragment mask type small rest
  have moderate := moderate_generateFrame fragment mask type small rest
  rw [← received] at found moderate
  obtain ⟨stored, ready, data_eq, -⟩ := getFrame_of_item heap moderate.honest dest found
  rw [WireFrame.decoded_payload, generatedFrame_payload,
    Buffer.clip_of_le (Or.inl unlimited)] at data_eq
  refine ⟨stored, ready, data_eq, ?_⟩
  rw [data_eq, List.take_eq_self_iff]
  constructor
  · intro whole
    exact Nat.lt_of_le_of_lt whole (generatedLength_lt _)
  · intro short
    rw [generatedLength_eq short]

/-- Bytes which are too many for one frame of the generator. -/
def longData : List UInt8 := List.replicate 65537 0x61

theorem length_longData : longData.length = 65537 := List.length_replicate

/-- Of 65537 bytes the server reads one. -/
theorem server_reads_generateFrame_long :
    ∃ stored : Buffer,
      stored.data = [0x61] ∧
        getFrame (2 ^ 64) (fun _ _ => 0xff)
            { bufferCreate 0 with data := generateFrame longData false (fun _ => 0) (some .text) }
            (bufferCreate 0) =
          .ready true 1 true
            { bufferCreate 0 with data := (maskFrom (fun _ => 0) 0 longData).drop 1 } stored := by
  have generated : generatedLength 65537 = 1 := by decide
  obtain ⟨stored, ready, data_eq, -⟩ := @server_reads_generateFrame (fun _ _ => 0xff) longData
    (by rw [length_longData]; decide) false (fun _ => 0) (some .text) []
    { bufferCreate 0 with data := generateFrame longData false (fun _ => 0) (some .text) }
    (bufferCreate 0) rfl (List.append_nil _).symm
  rw [length_longData, generated] at ready data_eq
  rw [List.append_nil] at ready
  rw [longData, List.take_replicate] at data_eq
  exact ⟨stored, data_eq, ready⟩

/-! ## Cutting a message -/

section Generator

variable (maxsize : Nat) (type : FrameType) (masks : Nat → Fin 4 → UInt8)

/-- The frames which the loop makes of data, from a given round on. -/
def framesFrom (first : Bool) (index : Nat) (data : List UInt8) : List (List UInt8) :=
  (Loop.run (generateRound maxsize type masks) (fun state => state.data.length)
    { data, first, index, frames := [] }).frames

variable {maxsize}

theorem generateRound_of_cons {state : Generation} (nonempty : state.data ≠ []) :
    generateRound maxsize type masks state =
      .again
        { data := state.data.drop maxsize
          first := false
          index := state.index + 1
          frames := state.frames ++
            [generateFrame (state.data.take maxsize) (decide (0 < (state.data.drop maxsize).length))
              (masks state.index) (if state.first then some type else none)] } := by
  have cut : (if state.data.length < maxsize then (state.data, [])
      else (state.data.take maxsize, state.data.drop maxsize)) =
      (state.data.take maxsize, state.data.drop maxsize) := by
    split_ifs with short
    · rw [List.take_of_length_le (Nat.le_of_lt short), List.drop_of_length_le (Nat.le_of_lt short)]
    · rfl
  rw [generateRound, if_pos (List.length_pos_iff.mpr nonempty), cut]

theorem generateRound_of_nil {state : Generation} (empty : state.data = []) :
    generateRound maxsize type masks state = .leave state := by
  rw [generateRound, empty]
  rfl

theorem generateRound_decreasing (positive : maxsize ≠ 0) :
    Loop.Decreasing (generateRound maxsize type masks) fun state => state.data.length := by
  intro state next again
  by_cases empty : state.data = []
  · rw [generateRound_of_nil type masks empty] at again
    cases again
  · rw [generateRound_of_cons type masks empty] at again
    injection again with next_eq
    have shorter : (state.data.drop maxsize).length < state.data.length := by
      have := List.length_pos_iff.mpr empty
      rw [List.length_drop]
      omega
    rw [← next_eq]
    exact shorter

theorem framesFrom_nil (first : Bool) (index : Nat) :
    framesFrom maxsize type masks first index [] = [] := by
  rw [framesFrom, Loop.run_of_leave _ (generateRound_of_nil type masks rfl)]

theorem run_generateRound (positive : maxsize ≠ 0) (data : List UInt8) (first : Bool)
    (index : Nat) (frames : List (List UInt8)) :
    (Loop.run (generateRound maxsize type masks) (fun state => state.data.length)
      { data, first, index, frames }).frames =
        frames ++ framesFrom maxsize type masks first index data := by
  have decreasing := generateRound_decreasing type masks positive
  induction length_eq : data.length using Nat.strongRecOn generalizing data first index frames with
  | _ length ih =>
      by_cases empty : data = []
      · rw [empty, framesFrom_nil, Loop.run_of_leave _ (generateRound_of_nil type masks rfl),
          List.append_nil]
      · have shorter : (data.drop maxsize).length < length := by
          have := List.length_pos_iff.mpr empty
          rw [List.length_drop]
          omega
        have again := fun frames =>
          @generateRound_of_cons maxsize type masks { data, first, index, frames } empty
        rw [framesFrom, Loop.run_of_again decreasing (again frames),
          Loop.run_of_again decreasing (again []), ih _ shorter _ _ _ _ rfl,
          ih _ shorter _ _ _ _ rfl, List.nil_append, List.append_assoc]

theorem framesFrom_cons (positive : maxsize ≠ 0) (first : Bool) (index : Nat) {data : List UInt8}
    (nonempty : data ≠ []) :
    framesFrom maxsize type masks first index data =
      generateFrame (data.take maxsize) (decide (0 < (data.drop maxsize).length)) (masks index)
          (if first then some type else none) ::
        framesFrom maxsize type masks false (index + 1) (data.drop maxsize) := by
  rw [framesFrom, Loop.run_of_again (generateRound_decreasing type masks positive)
    (generateRound_of_cons type masks nonempty), run_generateRound type masks positive]
  rfl

/-- A frame of the generator with fewer than 65536 bytes is scanned whole. -/
theorem scanFrame_generateFrame_of_lt {data : List UInt8} (short : data.length < 2 ^ 16)
    (fragment : Bool) (mask : Fin 4 → UInt8) (frameType : Option FrameType) (rest : List UInt8) :
    scanFrame (generateFrame data fragment mask frameType ++ rest) =
      .item
        { fin := !fragment
          opcode := typeOpcode frameType
          mask := true
          payload := data }
        rest := by
  have found := scanFrame_generateFrame fragment mask frameType
    (Nat.lt_trans short (by decide)) rest
  rwa [generatedLength_eq short, List.drop_of_length_le (Nat.le_of_eq (length_maskFrom _ _ _)),
    List.nil_append, WireFrame.decoded, generatedFrame_payload, generatedLength_eq short,
    List.take_length] at found

/-- What the scan and the reassembly make of a frame of the generator. -/
theorem pieces_generateFrame {data : List UInt8} (short : data.length < 2 ^ 16) (fragment : Bool)
    (mask : Fin 4 → UInt8) (frameType : Option FrameType) (rest : List UInt8) :
    frameScanner.pieces (generateFrame data fragment mask frameType ++ rest) =
      .item
          { fin := !fragment
            opcode := typeOpcode frameType
            mask := true
            payload := data } ::
        frameScanner.pieces rest :=
  Scanner.pieces_item (scanFrame_generateFrame_of_lt short fragment mask frameType rest)

theorem allModerate_generateFrame {data : List UInt8} (short : data.length < 2 ^ 16)
    (fragment : Bool) (mask : Fin 4 → UInt8) (frameType : Option FrameType) {rest : List UInt8}
    (moderate : AllModerate rest) :
    AllModerate (generateFrame data fragment mask frameType ++ rest) := by
  have small : data.length < 2 ^ 32 := Nat.lt_trans short (by decide)
  refine allModerate_iff.mpr
    ⟨moderate_generateFrame fragment mask frameType small rest, fun value next found => ?_⟩
  rw [scanFrame_generateFrame_of_lt short] at found
  cases found
  exact moderate

theorem length_take_lt {data : List UInt8} {bound : Nat}
    (short : maxsize < bound ∨ data.length < bound) : (data.take maxsize).length < bound := by
  rw [List.length_take]
  omega

/-- No frame of the loop announces a large length. -/
theorem allModerate_framesFrom (positive : maxsize ≠ 0) {data : List UInt8}
    (short : maxsize < 2 ^ 16 ∨ data.length < 2 ^ 16) (first : Bool) (index : Nat) :
    AllModerate (framesFrom maxsize type masks first index data).flatten := by
  induction length_eq : data.length using Nat.strongRecOn generalizing data first index with
  | _ length ih =>
      by_cases empty : data = []
      · rw [empty, framesFrom_nil]
        decide
      · have shorter : (data.drop maxsize).length < length := by
          have := List.length_pos_iff.mpr empty
          rw [List.length_drop]
          omega
        have later_short : maxsize < 2 ^ 16 ∨ (data.drop maxsize).length < 2 ^ 16 :=
          short.imp_right (Nat.lt_of_le_of_lt (by simp))
        rw [framesFrom_cons type masks positive first index empty, List.flatten_cons]
        exact allModerate_generateFrame (length_take_lt short) _ _ _
          (ih _ shorter later_short false (index + 1) rfl)

/-- Behind a started message the frames of the loop complete it. -/
theorem sequential_framesFrom (positive : maxsize ≠ 0) {data : List UInt8}
    (short : maxsize < 2 ^ 16 ∨ data.length < 2 ^ 16) (nonempty : data ≠ []) (draft : Draft)
    (index : Nat) :
    let found := frameScanner.pieces (framesFrom maxsize type masks false index data).flatten
    sequential (.started draft) found =
        ([.message draft.opcode (draft.payload ++ data)], false) ∧
      undisturbed (.started draft) found = true := by
  induction length_eq : data.length using Nat.strongRecOn generalizing data draft index with
  | _ length ih =>
      dsimp only at ih ⊢
      rw [framesFrom_cons type masks positive false index nonempty, List.flatten_cons,
        pieces_generateFrame (length_take_lt short)]
      by_cases last : data.drop maxsize = []
      · have whole : data.take maxsize = data :=
          List.take_of_length_le (List.drop_eq_nil_iff.mp last)
        rw [last, framesFrom_nil, whole, List.flatten_nil, Scanner.pieces_nil]
        exact ⟨rfl, rfl⟩
      · have shorter : (data.drop maxsize).length < length := by
          have := List.length_pos_iff.mpr nonempty
          rw [List.length_drop]
          omega
        have later_short : maxsize < 2 ^ 16 ∨ (data.drop maxsize).length < 2 ^ 16 :=
          short.imp_right (Nat.lt_of_le_of_lt (by simp))
        obtain ⟨delivered, calm⟩ := ih _ shorter later_short last
          { draft with payload := draft.payload ++ data.take maxsize } (index + 1) rfl
        rw [List.append_assoc, List.take_append_drop] at delivered
        have fragment : decide (0 < (data.drop maxsize).length) = true :=
          decide_eq_true (List.length_pos_iff.mpr last)
        rw [fragment]
        exact ⟨by rw [← delivered]; rfl, calm⟩

end Generator

/-- What the server makes of a generated message.  An empty message which is to be cut has no
frames, and a control frame which is cut is refused. -/
def messageOutcome (maxsize : Nat) (type : FrameType) (data : List UInt8) : List Delivery × Bool :=
  if maxsize ≠ 0 ∧ data = [] then ([], false)
  else if isControl type.opcode then
    if maxsize ≠ 0 ∧ maxsize < data.length then ([], true)
    else ([.control type.opcode data], false)
  else ([.message type.opcode data], false)

theorem messageOutcome_whole {maxsize : Nat} (type : FrameType) {data : List UInt8}
    (whole : maxsize = 0 ∨ data ≠ [] ∧ data.length ≤ maxsize) :
    messageOutcome maxsize type data =
      if isControl type.opcode then ([.control type.opcode data], false)
      else ([.message type.opcode data], false) := by
  have present : ¬ (maxsize ≠ 0 ∧ data = []) := by tauto
  have uncut : ¬ (maxsize ≠ 0 ∧ maxsize < data.length) := by omega
  rw [messageOutcome, if_neg present, if_neg uncut]

theorem messageOutcome_cut {maxsize : Nat} (type : FrameType) {data : List UInt8}
    (positive : maxsize ≠ 0) (cut : maxsize < data.length) :
    messageOutcome maxsize type data =
      if isControl type.opcode then ([], true) else ([.message type.opcode data], false) := by
  have present : ¬ (maxsize ≠ 0 ∧ data = []) := by
    rintro ⟨-, rfl⟩
    exact Nat.not_lt_zero _ cut
  have both : maxsize ≠ 0 ∧ maxsize < data.length := ⟨positive, cut⟩
  rw [messageOutcome, if_neg present, if_pos both]

/-- A message in one frame. -/
theorem sequential_single (type : FrameType) (data : List UInt8) :
    let found := [.item { fin := true, opcode := type.opcode, mask := true, payload := data }]
    sequential .idle found =
        (if isControl type.opcode then ([.control type.opcode data], false)
          else ([.message type.opcode data], false)) ∧
      undisturbed .idle found = true := by
  cases type <;> exact ⟨rfl, rfl⟩

/-- A first fragment of a control frame is refused, and one of a message starts it. -/
theorem sequential_first (type : FrameType) (data : List UInt8) (found : List (Piece Frame)) :
    let first := { fin := false, opcode := type.opcode, mask := true, payload := data }
    sequential .idle (.item first :: found) =
        (if isControl type.opcode then ([], true)
          else sequential (.started { opcode := type.opcode, payload := data }) found) ∧
      undisturbed .idle (.item first :: found) =
        (if isControl type.opcode then true
          else undisturbed (.started { opcode := type.opcode, payload := data }) found) := by
  cases type <;> exact ⟨rfl, rfl⟩

/-- The outcome of the scan and the reassembly. -/
theorem sequential_makeMessage {maxsize : Nat} (type : FrameType) (masks : Nat → Fin 4 → UInt8)
    {data : List UInt8} (short : maxsize ≠ 0 ∧ maxsize < 2 ^ 16 ∨ data.length < 2 ^ 16) :
    let found := frameScanner.pieces (makeMessage maxsize type masks data).flatten
    sequential .idle found = messageOutcome maxsize type data ∧ undisturbed .idle found = true := by
  dsimp only
  by_cases positive : maxsize ≠ 0
  · have short' := short.imp_left And.right
    have message_eq : makeMessage maxsize type masks data =
        framesFrom maxsize type masks true 0 data := if_pos positive
    by_cases empty : data = []
    · rw [message_eq, empty, framesFrom_nil, messageOutcome, if_pos ⟨positive, rfl⟩,
        List.flatten_nil, Scanner.pieces_nil]
      exact ⟨rfl, rfl⟩
    rw [message_eq, framesFrom_cons type masks positive true 0 empty, List.flatten_cons,
      pieces_generateFrame (length_take_lt short')]
    by_cases last : data.drop maxsize = []
    · have le := List.drop_eq_nil_iff.mp last
      rw [last, framesFrom_nil, List.flatten_nil, Scanner.pieces_nil, List.take_of_length_le le,
        messageOutcome_whole type (Or.inr ⟨empty, le⟩)]
      exact sequential_single type data
    · have lt : maxsize < data.length :=
        Nat.lt_of_not_le fun le => last (List.drop_of_length_le le)
      have fragment : decide (0 < (data.drop maxsize).length) = true :=
        decide_eq_true (List.length_pos_iff.mpr last)
      obtain ⟨delivered, calm⟩ := sequential_framesFrom type masks positive
        (short'.imp_right (Nat.lt_of_le_of_lt (by simp))) last
        { opcode := type.opcode, payload := data.take maxsize } 1
      obtain ⟨first, undisturbed_eq⟩ := sequential_first type (data.take maxsize)
        (frameScanner.pieces (framesFrom maxsize type masks false 1 (data.drop maxsize)).flatten)
      rw [fragment, messageOutcome_cut type positive lt]
      refine ⟨first.trans ?_, undisturbed_eq.trans ?_⟩
      · rw [delivered, List.take_append_drop]
      · rw [calm, ite_self]
  · have small : data.length < 2 ^ 16 := short.resolve_left fun bound => positive bound.1
    rw [makeMessage, if_neg positive, List.flatten_singleton,
      ← List.append_nil (generateFrame _ _ _ _), pieces_generateFrame small, Scanner.pieces_nil,
      messageOutcome_whole type (Or.inl (not_not.mp positive))]
    exact sequential_single type data

theorem allModerate_makeMessage {maxsize : Nat} (type : FrameType) (masks : Nat → Fin 4 → UInt8)
    {data : List UInt8} (short : maxsize ≠ 0 ∧ maxsize < 2 ^ 16 ∨ data.length < 2 ^ 16) :
    AllModerate (makeMessage maxsize type masks data).flatten := by
  by_cases positive : maxsize ≠ 0
  · have message_eq : makeMessage maxsize type masks data =
        framesFrom maxsize type masks true 0 data := if_pos positive
    rw [message_eq]
    exact allModerate_framesFrom type masks positive (short.imp_left And.right) true 0
  · have small : data.length < 2 ^ 16 := short.resolve_left fun bound => positive bound.1
    have nothing : AllModerate [] := by decide
    rw [makeMessage, if_neg positive, List.flatten_singleton, ← List.append_nil (generateFrame ..)]
    exact allModerate_generateFrame small _ _ _ nothing

/-- The server receives every generated message whose frames have fewer than 65536 bytes, however it
is cut on its way, except that it refuses a control frame which the generator has cut. -/
theorem server_receives_message (heap : Heap) {maxsize : Nat} (type : FrameType)
    (masks : Nat → Fin 4 → UInt8) {data : List UInt8}
    (short : maxsize ≠ 0 ∧ maxsize < 2 ^ 16 ∨ data.length < 2 ^ 16) {chunks : List (List UInt8)}
    (fed : chunks.flatten = (makeMessage maxsize type masks data).flatten) :
    receive (2 ^ 64) heap chunks = messageOutcome maxsize type data := by
  have moderate : AllModerate chunks.flatten := fed ▸ allModerate_makeMessage type masks short
  obtain ⟨outcome, calm⟩ := sequential_makeMessage type masks short
  have found := Scanner.groups_flatten [] chunks frameScanner.scan_nil
  rw [List.nil_append, fed] at found
  rw [← found] at outcome calm
  have grouped := runGroups_of_undisturbed .idle Stage.settled_idle []
    (frameScanner.groups (some []) chunks) calm
  rw [List.nil_append, runGroups_nil_cons] at grouped
  rw [receive_of_moderate (by decide) heap moderate, receive_eq_runGroups, ← outcome, ← grouped]
  rfl

/-- The masks which a run of the generator draws. -/
def drawnMasks (index : Nat) : Fin 4 → UInt8 :=
  if index = 0 then ![0x4b, 0xfc, 0xec, 0x7b] else ![0xa5, 0x55, 0xc0, 0x55]

/-- A greeting in two fragments, which arrives in chunks of other sizes. -/
theorem server_receives_message_greeting :
    receive (2 ^ 64) (fun _ _ => 0xff)
        [[0x01, 0x83, 0x4b], [0xfc, 0xec, 0x7b, 0x23, 0x99, 0x80, 0x80, 0x82, 0xa5, 0x55],
          [0xc0, 0x55, 0xc9, 0x3a]] =
      ([.message 1 [0x68, 0x65, 0x6c, 0x6c, 0x6f]], false) := by
  have received := @server_receives_message (fun _ _ => 0xff) 3 .text drawnMasks
    [0x68, 0x65, 0x6c, 0x6c, 0x6f] (Or.inr (by decide))
    [[0x01, 0x83, 0x4b], [0xfc, 0xec, 0x7b, 0x23, 0x99, 0x80, 0x80, 0x82, 0xa5, 0x55],
      [0xc0, 0x55, 0xc9, 0x3a]] (by decide)
  rw [received]
  decide

end Jabsocket
