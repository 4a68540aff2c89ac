import Jabsocket.Frame
import Mathlib.Data.Fin.VecNotation
import Mathlib.Data.List.Infix

/-!
# Frames on the wire

The frames of RFC 6455 with reserved bits zero, as they are sent: FIN, an opcode, a masking key or
none, one of the three length forms, minimal or not, and the body.  The scan finds exactly these
frames at the front of a byte string, and finds nothing in a proper prefix of one.
-/

namespace Jabsocket

/-! ## Numbers in network byte order -/

/-- The low bytes of a number, the most significant first. -/
def bigEndian : Nat → Nat → List UInt8
  | 0, _ => []
  | count + 1, value => bigEndian count (value / 256) ++ [UInt8.ofNat value]

/-- The number which bytes denote, the most significant first. -/
def ofBigEndian (bytes : List UInt8) : Nat :=
  bytes.foldl (fun value byte => 256 * value + byte.toNat) 0

@[simp] theorem length_bigEndian (count value : Nat) : (bigEndian count value).length = count := by
  induction count generalizing value with
  | zero => rfl
  | succ count ih => simp [bigEndian, ih]

/-! ## Unmasking by position -/

theorem unmaskFrom_eq_mapIdx (mask : Nat → UInt8) {index : Nat} (bound : index < 4)
    (data : List UInt8) :
    unmaskFrom mask index data =
      data.mapIdx fun position byte => byte ^^^ mask ((index + position) % 4) := by
  induction data generalizing index with
  | nil => rfl
  | cons byte rest ih =>
      have next_bound : (if index + 1 = 4 then 0 else index + 1) < 4 := by split <;> omega
      have next_eq : ∀ position, ((if index + 1 = 4 then 0 else index + 1) + position) % 4 =
          (index + (position + 1)) % 4 := by
        intro position
        split <;> omega
      rw [unmaskFrom, ih next_bound, List.mapIdx_cons]
      simp only [next_eq, Nat.add_zero, Nat.mod_eq_of_lt bound]

/-- Byte `i` is combined with byte `i mod 4` of the key. -/
theorem unmask_eq_mapIdx {mask : Nat → UInt8} {key : Fin 4 → UInt8}
    (agree : ∀ index < 4, mask index = key (Fin.ofNat 4 index)) (data : List UInt8) :
    unmask data mask = data.mapIdx fun index byte => byte ^^^ key (Fin.ofNat 4 index) := by
  have wraps : ∀ index, Fin.ofNat 4 (index % 4) = Fin.ofNat 4 index :=
    fun index => Fin.ext (Nat.mod_mod _ _)
  rw [unmask, unmaskFrom_congr agree (by decide), unmaskFrom_eq_mapIdx _ (by decide)]
  simp only [Nat.zero_add, wraps]

/-! ## Frames -/

/-- Opcodes are written as numbers. -/
instance neZeroSixteen : @NeZero Nat Zero.ofOfNat0 16 := ⟨by decide⟩

/-- The three ways to write the length of a body. -/
inductive LengthForm where
  | seven
  | sixteen
  | sixtyFour
  deriving DecidableEq, Repr

namespace LengthForm

/-- Whether a length can be written in a form. -/
def Fits : LengthForm → Nat → Prop
  | seven, length => length ≤ 125
  | sixteen, length => length < 2 ^ 16
  | sixtyFour, length => length < 2 ^ 64

instance : (form : LengthForm) → (length : Nat) → Decidable (form.Fits length)
  | seven, length => inferInstanceAs (Decidable (length ≤ 125))
  | sixteen, length => inferInstanceAs (Decidable (length < 2 ^ 16))
  | sixtyFour, length => inferInstanceAs (Decidable (length < 2 ^ 64))

/-- The seven length bits of the second byte. -/
def field : LengthForm → Nat → Nat
  | seven, length => length
  | sixteen, _ => 126
  | sixtyFour, _ => 127

/-- The length bytes behind the second byte. -/
def extended : LengthForm → Nat → List UInt8
  | seven, _ => []
  | sixteen, length => bigEndian 2 length
  | sixtyFour, length => bigEndian 8 length

/-- Length of the header without the masking key. -/
def headerLength (form : LengthForm) : Nat :=
  match form with
  | seven => 2
  | sixteen => 4
  | sixtyFour => 10

theorem length_extended (form : LengthForm) (length : Nat) :
    (form.extended length).length + 2 = form.headerLength := by
  cases form <;> simp [extended, headerLength]

theorem field_lt {form : LengthForm} {length : Nat} (fits : form.Fits length) :
    form.field length < 128 := by
  cases form with
  | seven => exact Nat.lt_of_le_of_lt fits (by decide)
  | sixteen => exact Nat.lt_of_sub_eq_succ rfl
  | sixtyFour => exact Nat.lt_of_sub_eq_succ rfl

end LengthForm

/-- A frame of RFC 6455 with reserved bits zero and a body below 2^32 bytes. -/
structure WireFrame where
  fin : Bool
  opcode : Fin 16
  /-- The masking key, if the frame is masked. -/
  key : Option (Fin 4 → UInt8)
  form : LengthForm
  /-- The payload as it is sent. -/
  body : List UInt8
  fits : form.Fits body.length
  small : body.length < 2 ^ 32

namespace WireFrame

variable (frame : WireFrame)

/-- The first byte: FIN and the opcode. -/
def firstByte : UInt8 := UInt8.ofNat ((if frame.fin then 0x80 else 0) + frame.opcode)

/-- The second byte: the mask bit and the length bits. -/
def secondByte : UInt8 :=
  UInt8.ofNat ((if frame.key.isSome then 0x80 else 0) + frame.form.field frame.body.length)

/-- The bytes of the masking key. -/
def keyBytes : List UInt8 :=
  match frame.key with
  | none => []
  | some key => List.ofFn key

/-- The bytes which are sent. -/
def bytes : List UInt8 :=
  frame.firstByte :: frame.secondByte ::
    (frame.form.extended frame.body.length ++ (frame.keyBytes ++ frame.body))

/-- The unmasked payload: byte `i` is combined with byte `i mod 4` of the key. -/
def payload : List UInt8 :=
  match frame.key with
  | none => frame.body
  | some key => frame.body.mapIdx fun index byte => byte ^^^ key (Fin.ofNat 4 index)

/-- What a decoder has to report. -/
def decoded : Frame :=
  { fin := frame.fin
    opcode := frame.opcode
    mask := frame.key.isSome
    payload := frame.payload }

@[simp] theorem decoded_fin : frame.decoded.fin = frame.fin := rfl

@[simp] theorem decoded_opcode : frame.decoded.opcode = frame.opcode := rfl

@[simp] theorem decoded_payload : frame.decoded.payload = frame.payload := rfl

@[simp] theorem length_payload : frame.payload.length = frame.body.length := by
  unfold payload
  split <;> simp

theorem length_keyBytes : frame.keyBytes.length = if frame.key.isSome then 4 else 0 := by
  unfold keyBytes
  cases frame.key <;> simp

theorem firstByte_decodes :
    frame.firstByte &&& 0x70 = 0 ∧ (frame.firstByte &&& 0x80 ≠ 0 ↔ frame.fin = true) ∧
      (frame.firstByte &&& 0x0f).toNat = frame.opcode := by
  have all : ∀ (fin : Bool) (opcode : Fin 16),
      UInt8.ofNat ((if fin then 0x80 else 0) + opcode) &&& 0x70 = 0 ∧
        (UInt8.ofNat ((if fin then 0x80 else 0) + opcode) &&& 0x80 ≠ 0 ↔ fin = true) ∧
        (UInt8.ofNat ((if fin then 0x80 else 0) + opcode) &&& 0x0f).toNat = opcode := by
    decide
  exact all frame.fin frame.opcode

theorem secondByte_decodes :
    (frame.secondByte &&& 0x80 ≠ 0 ↔ frame.key.isSome = true) ∧
      (frame.secondByte &&& 0x7f).toNat = frame.form.field frame.body.length := by
  have all : ∀ (masked : Bool), ∀ field < 128,
      (UInt8.ofNat ((if masked then 0x80 else 0) + field) &&& 0x80 ≠ 0 ↔ masked = true) ∧
        (UInt8.ofNat ((if masked then 0x80 else 0) + field) &&& 0x7f).toNat = field := by
    decide
  exact all frame.key.isSome _ (LengthForm.field_lt frame.fits)

/-- The length bytes announce the length of the body, whatever follows them. -/
theorem frameHeader_bytes (later : List UInt8) :
    frameHeader (byteAt (frame.bytes ++ later)) (frame.bytes ++ later).length =
      some (frame.body.length, frame.form.headerLength) := by
  have small := frame.small
  have fits := frame.fits
  have field := frame.secondByte_decodes.2
  unfold bytes
  generalize frame.keyBytes ++ frame.body = behind
  generalize frame.body.length = length at *
  generalize frame.secondByte = second at *
  cases form : frame.form with
  | seven =>
      rw [form] at fits field
      have short : length ≤ 125 := fits
      have not126 : length ≠ 126 := by omega
      have not127 : length ≠ 127 := by omega
      simp [frameHeader, byteAt, field, LengthForm.field, not126, not127,
        LengthForm.headerLength]
  | sixteen =>
      rw [form] at fits field
      have short : length < 65536 := fits
      simp only [frameHeader, byteAt, LengthForm.extended, bigEndian, List.nil_append,
        List.cons_append, List.getD_cons_succ, List.getD_cons_zero, field, LengthForm.field,
        if_true, LengthForm.headerLength]
      rw [if_neg (by simp), ntohs_loadU16]
      simp only [UInt8.toNat_ofNat', Option.some.injEq, Prod.mk.injEq, and_true]
      omega
  | sixtyFour =>
      rw [form] at field
      simp only [frameHeader, byteAt, LengthForm.extended, bigEndian, List.nil_append,
        List.cons_append, List.getD_cons_succ, List.getD_cons_zero, field, LengthForm.field,
        LengthForm.headerLength]
      rw [if_neg (by decide), if_pos trivial, if_neg (by simp), ntohl_loadU32]
      simp only [UInt8.toNat_ofNat', Option.some.injEq, Prod.mk.injEq, and_true]
      omega

/-- Only a body of 2^31 bytes or more is announced as a negative length. -/
theorem moderate_bytes {frame : WireFrame} (short : frame.body.length < 2 ^ 31)
    (rest : List UInt8) : Moderate (frame.bytes ++ rest) := by
  rintro ⟨messageLength, headerLength⟩ announced
  rw [frame.frameHeader_bytes rest] at announced
  cases announced
  exact short

/-- The key is found behind the length bytes. -/
theorem byteAt_key (later : List UInt8) {key : Fin 4 → UInt8} (masked : frame.key = some key)
    {index : Nat} (bound : index < 4) :
    byteAt (frame.bytes ++ later) (frame.form.headerLength + index) = key (Fin.ofNat 4 index) := by
  have header := LengthForm.length_extended frame.form frame.body.length
  have position : (Fin.ofNat 4 index) = ⟨index, bound⟩ := Fin.ext (Nat.mod_eq_of_lt bound)
  have inside : index < (List.ofFn key ++ (frame.body ++ later)).length := by
    rw [List.length_append, List.length_ofFn]
    omega
  rw [← header, Nat.add_right_comm, byteAt, bytes, keyBytes, masked, position]
  simp only [List.cons_append, List.append_assoc, List.getD_cons_succ]
  rw [List.getD_eq_getElem?_getD, List.getElem?_append_right (Nat.le_add_right _ _),
    Nat.add_sub_cancel_left, List.getElem?_eq_getElem inside, Option.getD_some,
    List.getElem_append_left (by simpa using bound), List.getElem_ofFn]

/-- The scan finds the frame, whatever follows it. -/
theorem scanFrame_bytes (later : List UInt8) :
    scanFrame (frame.bytes ++ later) = .item frame.decoded later := by
  obtain ⟨plain, final, code⟩ := frame.firstByte_decodes
  obtain ⟨masked, -⟩ := frame.secondByte_decodes
  have announced := frame.frameHeader_bytes later
  have header := LengthForm.length_extended frame.form frame.body.length
  have key_length := frame.length_keyBytes
  have first : byteAt (frame.bytes ++ later) 0 = frame.firstByte := rfl
  have second : byteAt (frame.bytes ++ later) 1 = frame.secondByte := rfl
  have start : payloadStart (byteAt (frame.bytes ++ later)) frame.form.headerLength =
      frame.form.headerLength + frame.keyBytes.length := by
    rw [payloadStart, second, key_length]
    by_cases flag : frame.key.isSome = true
    · rw [if_pos (masked.mpr flag), if_pos flag]
    · rw [if_neg (fun set => flag (masked.mp set)), if_neg flag, Nat.add_zero]
  have behind : (frame.bytes ++ later).drop
      (frame.form.headerLength + frame.keyBytes.length) = frame.body ++ later := by
    rw [← header, bytes]
    simp [Nat.add_right_comm _ 2, List.drop_append]
  have total : (frame.bytes ++ later).length =
      frame.form.headerLength + frame.keyBytes.length + (frame.body ++ later).length := by
    rw [← header, bytes]
    simp only [List.length_append, List.length_cons]
    omega
  refine scanFrame_eq_item_iff.mpr ⟨by omega, plain, _, _, announced, ?_, ?_, ?_⟩
  · rw [start, total, List.length_append]
    omega
  · rw [frameAt, start, behind, first, second, code]
    have fin_eq : decide (frame.firstByte &&& 0x80 ≠ 0) = frame.fin := by
      simp only [final, Bool.decide_eq_true]
    simp only [decoded, fin_eq, masked, Bool.decide_eq_true, List.take_left, Frame.mk.injEq,
      true_and]
    cases key : frame.key with
    | none => simp [payload, key]
    | some key' =>
        rw [unmask_eq_mapIdx fun index bound => frame.byteAt_key later key bound]
        simp [payload, key]
  · rw [start, ← List.drop_drop, behind, List.drop_left]

/-- Nothing is found in a proper prefix of a frame. -/
theorem scanFrame_of_isPrefix {data : List UInt8} (beginning : data <+: frame.bytes)
    (proper : data ≠ frame.bytes) : scanFrame data = .more := by
  obtain ⟨later, split_bytes⟩ := beginning
  have whole := frame.scanFrame_bytes []
  rw [List.append_nil, ← split_bytes] at whole
  cases found : scanFrame data with
  | more => rfl
  | fail =>
      have failed : scanFrame (data ++ later) = .fail := frameScanner.scan_fail_append later found
      rw [failed] at whole
      cases whole
  | item value rest =>
      have earlier : scanFrame (data ++ later) = .item value (rest ++ later) :=
        frameScanner.scan_item_append later found
      rw [earlier] at whole
      obtain ⟨-, rfl⟩ := List.append_eq_nil_iff.mp (Scan.item.inj whole).2
      exact absurd (by rw [← split_bytes, List.append_nil]) proper

end WireFrame

end Jabsocket
