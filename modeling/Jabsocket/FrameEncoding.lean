import Jabsocket.Frame

/-!
# Encoding one WebSocket frame

`wsconn_write_frame` of `wsserver.c` writes an unmasked frame with one of three length forms.
This file computes the length a decoder reads back from each form, and from it the payload
sizes for which the decoder returns the frame which was written.
-/

namespace Jabsocket

/-- First byte of a written frame: FIN and the opcode. -/
def opcodeByte (opcode : Nat) : UInt8 := 0x80 + (0x0f &&& UInt8.ofNat opcode)

/-- `block1` of `wsconn_write_frame`: the length bytes of a written frame. -/
def lengthBlock (size : Nat) : List UInt8 :=
  if size ≤ 125 then
    [UInt8.ofNat size]
  else if size < (2 <<< 16) - 1 then
    126 :: storeU16 (htons size)
  else
    127 :: 0 :: 0 :: 0 :: 0 :: storeU32 (htons size)

/-- `wsconn_write_frame` on the bytes of the output buffer. -/
def wsconnWriteFrame (sizeMod : Nat) (output : List UInt8) (opcode : Nat)
    (payload : List UInt8) : List UInt8 :=
  match bufferAppend sizeMod (bufferCreate 0) [opcodeByte opcode] with
  | (_, false) => output
  | (buffer, true) =>
      match bufferAppend sizeMod buffer (lengthBlock payload.length) with
      | (_, false) => output
      | (buffer, true) =>
          match bufferAppend sizeMod buffer payload with
          | (_, false) => output
          | (buffer, true) => output ++ buffer.data

/-- The bytes of a written frame. -/
def frameBytes (opcode : Nat) (payload : List UInt8) : List UInt8 :=
  opcodeByte opcode :: (lengthBlock payload.length ++ payload)

theorem length_lengthBlock_le (size : Nat) : (lengthBlock size).length ≤ 9 := by
  unfold lengthBlock
  split
  · simp
  · split <;> simp [storeU16, storeU32]

/-- All three appends succeed, so the frame is written whole. -/
theorem wsconnWriteFrame_eq {sizeMod : Nat} (wide : sizeMod = 0 ∨ 2 ^ 33 ≤ sizeMod)
    (output : List UInt8) (opcode : Nat) {payload : List UInt8} (small : sizeMod = 0 ∨ payload.length < 2 ^ 32) :
    wsconnWriteFrame sizeMod output opcode payload = output ++ frameBytes opcode payload := by
  have append : ∀ (buffer : Buffer) (input : List UInt8), buffer.maxLength = 0 →
      (sizeMod = 0 ∨ buffer.length + input.length + 1024 < 2 ^ 33) →
      ∃ grown : Buffer, bufferAppend sizeMod buffer input = (grown, true) ∧
        grown.data = buffer.data ++ input ∧ grown.maxLength = 0 := by
    intro buffer input unlimited sizes
    have fits : sizeMod = 0 ∨ buffer.length + input.length + 1024 < sizeMod := by
      obtain zero | large := wide
      · exact Or.inl zero
      · exact sizes.imp id fun bound => by omega
    obtain ⟨data, ok⟩ := bufferAppend_unlimited _ input unlimited fits
    exact ⟨_, Prod.ext rfl ok, data, by rw [bufferAppend_maxLength, unlimited]⟩
  have block_le := length_lengthBlock_le payload.length
  obtain ⟨first, first_eq, first_data, first_limit⟩ :=
    append (bufferCreate 0) [opcodeByte opcode] rfl (Or.inr (by simp [Buffer.length]))
  obtain ⟨second, second_eq, second_data, second_limit⟩ :=
    append first (lengthBlock payload.length) first_limit (Or.inr (by
      simp only [Buffer.length, first_data, bufferCreate_data, List.nil_append,
        List.length_singleton]
      omega))
  obtain ⟨third, third_eq, third_data, -⟩ :=
    append second payload second_limit (small.imp id fun bound => by
      simp only [Buffer.length, second_data, first_data, bufferCreate_data, List.nil_append,
        List.length_append, List.length_singleton]
      omega)
  simp only [wsconnWriteFrame, first_eq, second_eq, third_eq, third_data, second_data,
    first_data, bufferCreate_data, List.nil_append, List.cons_append, frameBytes]

/-- The payload length which a decoder reads from the length bytes. -/
def announcedLength (size : Nat) : Nat :=
  if size ≤ 125 then size
  else if size < 131071 then size % 65536
  else size % 65536 * 65536

/-- Length of the header of a written frame. -/
def encodedHeaderLength (size : Nat) : Nat :=
  if size ≤ 125 then 2 else if size < 131071 then 4 else 10

/-- Exactly the sizes of 16 bits are announced correctly. -/
theorem announcedLength_eq_iff (size : Nat) : announcedLength size = size ↔ size < 65536 := by
  unfold announcedLength
  split
  · omega
  · split <;> omega

/-- A large announced length is a multiple of 65536. -/
theorem announcedLength_add_le {size : Nat} (large : 2 ^ 31 ≤ announcedLength size) :
    announcedLength size + 1024 ≤ 2 ^ 32 := by
  unfold announcedLength at large ⊢
  split_ifs at large ⊢ <;> omega

theorem opcodeByte_decodes {opcode : Nat} (bound : opcode < 16) :
    opcodeByte opcode &&& 0x70 = 0 ∧ opcodeByte opcode &&& 0x80 ≠ 0 ∧
      (opcodeByte opcode &&& 0x0f).toNat = opcode := by
  revert opcode
  decide

theorem shortLength_decodes {size : Nat} (bound : size ≤ 125) :
    (UInt8.ofNat size &&& 0x7f).toNat = size ∧ UInt8.ofNat size &&& 0x80 = 0 := by
  have all : ∀ size < 126, (UInt8.ofNat size &&& 0x7f).toNat = size ∧
      UInt8.ofNat size &&& 0x80 = 0 := by decide
  exact all size (by omega)

/-- The two bytes which `htons` swaps. -/
theorem htons_bytes (size : Nat) :
    htons size % 256 = size / 256 % 256 ∧ htons size / 256 = size % 256 := by
  have low : size % 256 < 256 := Nat.mod_lt _ (by decide)
  have high : size / 256 % 256 < 256 := Nat.mod_lt _ (by decide)
  unfold htons
  generalize size % 256 = low at *
  generalize size / 256 % 256 = high at *
  omega

theorem mediumLength_decodes (size : Nat) :
    ntohs (loadU16 (UInt8.ofNat (htons size)) (UInt8.ofNat (htons size / 256))) =
      size % 65536 := by
  obtain ⟨first, second⟩ := htons_bytes size
  have nested := Nat.div_div_eq_div_mul size 256 256
  rw [ntohs_loadU16]
  simp only [UInt8.toNat_ofNat', Nat.reducePow, first, second]
  omega

theorem longLength_decodes (size : Nat) :
    ntohl (loadU32 (UInt8.ofNat (htons size)) (UInt8.ofNat (htons size / 256))
      (UInt8.ofNat (htons size / 65536)) (UInt8.ofNat (htons size / 16777216))) =
      size % 65536 * 65536 := by
  obtain ⟨first, second⟩ := htons_bytes size
  have third : htons size / 65536 = 0 := by omega
  have fourth : htons size / 16777216 = 0 := by omega
  have nested := Nat.div_div_eq_div_mul size 256 256
  rw [ntohl_loadU32]
  simp only [UInt8.toNat_ofNat', Nat.reducePow, first, second, third, fourth]
  omega

theorem two_le_encodedHeaderLength (size : Nat) : 2 ≤ encodedHeaderLength size := by
  unfold encodedHeaderLength
  split
  · omega
  · split <;> omega

theorem length_lengthBlock (size : Nat) :
    (lengthBlock size).length + 1 = encodedHeaderLength size := by
  unfold lengthBlock encodedHeaderLength
  rw [show (2 <<< 16) - 1 = 131071 from rfl]
  split
  · rfl
  · split <;> rfl

/-- The length bytes are unmasked and announce `announcedLength`. -/
theorem lengthBlock_decodes (first : UInt8) (size : Nat) (later : List UInt8) :
    byteAt (first :: (lengthBlock size ++ later)) 1 &&& 0x80 = 0 ∧
      frameHeader (byteAt (first :: (lengthBlock size ++ later)))
          (first :: (lengthBlock size ++ later)).length =
        some (announcedLength size, encodedHeaderLength size) := by
  unfold lengthBlock announcedLength encodedHeaderLength
  rw [show (2 <<< 16) - 1 = 131071 from rfl]
  by_cases short : size ≤ 125
  · obtain ⟨value, unmasked⟩ := shortLength_decodes short
    have not126 : size ≠ 126 := by omega
    have not127 : size ≠ 127 := by omega
    simp [short, byteAt, frameHeader, value, unmasked, not126, not127]
  by_cases medium : size < 131071
  · have unmasked : (126 : UInt8) &&& 128 = 0 := by decide
    simp [short, medium, byteAt, frameHeader, storeU16, mediumLength_decodes, unmasked]
  · have unmasked : (127 : UInt8) &&& 128 = 0 := by decide
    simp [short, medium, byteAt, frameHeader, storeU32, longLength_decodes, unmasked]

/-- What the decoder finds at the front of a written frame followed by other bytes. -/
theorem scanFrame_frameBytes {opcode : Nat} (bound : opcode < 16) (payload rest : List UInt8) :
    scanFrame (frameBytes opcode payload ++ rest) =
      if (payload ++ rest).length < announcedLength payload.length then .more
      else
        .item
          { fin := true
            opcode := opcode
            mask := false
            payload := (payload ++ rest).take (announcedLength payload.length) }
          ((payload ++ rest).drop (announcedLength payload.length)) := by
  obtain ⟨plain, final, code⟩ := opcodeByte_decodes bound
  have bytes_eq : frameBytes opcode payload ++ rest =
      opcodeByte opcode :: (lengthBlock payload.length ++ (payload ++ rest)) := by
    simp [frameBytes]
  obtain ⟨unmasked, announced⟩ :=
    lengthBlock_decodes (opcodeByte opcode) payload.length (payload ++ rest)
  have header_length := length_lengthBlock payload.length
  have two_le := two_le_encodedHeaderLength payload.length
  rw [bytes_eq]
  generalize announcedLength payload.length = messageLength at *
  generalize encodedHeaderLength payload.length = headerLength at *
  generalize payload ++ rest = body at *
  have total : (opcodeByte opcode :: (lengthBlock payload.length ++ body)).length =
      headerLength + body.length := by
    simp only [List.length_cons, List.length_append]
    omega
  have behind : ∀ count, (opcodeByte opcode :: (lengthBlock payload.length ++ body)).drop
      (headerLength + count) = body.drop count := by
    intro count
    rw [← header_length, show (lengthBlock payload.length).length + 1 + count =
      ((lengthBlock payload.length).length + count) + 1 by omega, List.drop_succ_cons,
      List.drop_append]
    simp
  have first : byteAt (opcodeByte opcode :: (lengthBlock payload.length ++ body)) 0 =
      opcodeByte opcode := rfl
  generalize opcodeByte opcode :: (lengthBlock payload.length ++ body) = data at *
  have long : ¬ data.length < 2 := by omega
  have start : payloadStart (byteAt data) headerLength = headerLength := by
    simp [payloadStart, unmasked]
  simp only [scanFrame, if_neg long, first, plain, ne_eq, not_true_eq_false, if_false,
    announced, start]
  by_cases short : body.length < messageLength
  · rw [if_pos (by omega), if_pos short]
  · have payload_eq := behind 0
    simp only [Nat.add_zero, List.drop_zero] at payload_eq
    rw [if_neg (by omega), if_neg short, behind]
    simp [frameAt, first, final, code, unmasked, start, payload_eq]

/-! ## Reading a written frame back -/

/-- The frame which `wsconn_write_frame` appends is read back by `get_frame`, whatever the
output held before, whatever follows it in the source and whatever the heap holds. -/
def ReadsBack (opcode : Nat) (payload : List UInt8) : Prop :=
  ∀ output : List UInt8, ∃ appended,
    wsconnWriteFrame (2 ^ 64) output opcode payload = output ++ appended ∧
      ∀ (heap : Heap) (source dest : Buffer) (rest : List UInt8),
        source.data = appended ++ rest → dest.maxLength = 0 →
          ∃ stored : Buffer,
            getFrame (2 ^ 64) heap source dest =
                .ready true opcode false { source with data := rest } stored ∧
              stored.data = payload

/-- A frame which is read back announces its own length. -/
theorem announcedLength_eq_of_readsBack {opcode : Nat} {payload : List UInt8}
    (bound : opcode < 16) (small : payload.length < 2 ^ 32)
    (readsBack : ReadsBack opcode payload) :
    announcedLength payload.length = payload.length := by
  let source : Buffer := { data := frameBytes opcode payload, capacity := 0, maxLength := 0 }
  obtain ⟨appended, written, decoded⟩ := readsBack []
  rw [wsconnWriteFrame_eq (Or.inr (by decide)) [] opcode (Or.inr small)] at written
  obtain rfl : frameBytes opcode payload = appended := by simpa using written
  obtain ⟨stored, ready, stored_eq⟩ :=
    decoded (fun _ _ => 0) source (bufferCreate 0) [] (by simp [source]) rfl
  obtain ⟨-, announced⟩ := lengthBlock_decodes (opcodeByte opcode) payload.length payload
  have two_le : 2 ≤ source.data.length := by
    have block := length_lengthBlock payload.length
    have header_ge := two_le_encodedHeaderLength payload.length
    simp only [source, frameBytes, List.length_cons, List.length_append]
    omega
  have plain : byteAt source.data 0 &&& 0x70 = 0 := (opcodeByte_decodes bound).1
  -- A length from 2^31 on is a multiple of 65536, and such a copy is refused.
  have honest : Honest (2 ^ 64) source.data := by
    refine Moderate.honest ?_
    rintro ⟨length, header⟩ found
    obtain ⟨rfl, rfl⟩ := Prod.mk.inj (Option.some.inj (announced.symm.trans found))
    by_contra negative
    have negative : 2 ^ 31 ≤ announcedLength payload.length := Nat.not_lt.mp negative
    have refused := @getFrame_of_negative _ source (bufferCreate 0) (fun _ _ => 0)
      (show 2 ^ 33 ≤ 2 ^ 64 by decide) two_le plain _ _ announced negative
      (announcedLength_add_le negative) rfl (by decide)
    rw [ready] at refused
    cases refused
  have scanned := scanFrame_frameBytes bound payload []
  rw [List.append_nil, List.append_nil] at scanned
  by_cases short : payload.length < announcedLength payload.length
  · rw [if_pos short] at scanned
    obtain ⟨other, building, -⟩ :=
      getFrame_of_more (fun _ _ => 0) honest (bufferCreate 0)
        (show scanFrame source.data = _ from scanned)
    rw [ready] at building
    cases building
  · rw [if_neg short] at scanned
    obtain ⟨other, found, payload_eq, -⟩ :=
      getFrame_of_item (fun _ _ => 0) honest (bufferCreate 0)
        (show scanFrame source.data = _ from scanned)
    rw [ready] at found
    obtain rfl : stored = other := by injection found
    have lengths := congrArg List.length (payload_eq.symm.trans stored_eq)
    rw [Buffer.clip_of_unlimited (bufferCreate_maxLength 0), List.length_take] at lengths
    omega

/-- A written frame is read back exactly when its payload is shorter than 65536 bytes. -/
theorem readsBack_iff_length_lt {opcode : Nat} {payload : List UInt8} (bound : opcode < 16)
    (small : payload.length < 2 ^ 32) :
    ReadsBack opcode payload ↔ payload.length < 65536 := by
  constructor
  · intro readsBack
    rw [← announcedLength_eq_iff]
    exact announcedLength_eq_of_readsBack bound small readsBack
  · intro short output
    refine ⟨frameBytes opcode payload,
      wsconnWriteFrame_eq (Or.inr (by decide)) output opcode (Or.inr small), ?_⟩
    intro heap source dest rest source_eq unlimited
    have honest : Honest (2 ^ 64) source.data := by
      refine Moderate.honest ?_
      rintro ⟨length, header⟩ found
      have announced :=
        (lengthBlock_decodes (opcodeByte opcode) payload.length (payload ++ rest)).2
      rw [source_eq, frameBytes, List.cons_append, List.append_assoc] at found
      obtain ⟨rfl, rfl⟩ := Prod.mk.inj (Option.some.inj (announced.symm.trans found))
      rw [(announcedLength_eq_iff _).mpr short]
      exact Nat.lt_trans short (by decide)
    have scanned := scanFrame_frameBytes bound payload rest
    rw [(announcedLength_eq_iff _).mpr short, if_neg (by simp), ← source_eq] at scanned
    obtain ⟨stored, ready, payload_eq, -⟩ := getFrame_of_item heap honest dest scanned
    rw [Buffer.clip_of_unlimited unlimited] at payload_eq
    refine ⟨stored, ?_, ?_⟩
    · simpa using ready
    · simpa using payload_eq

/-- The text frame `hi` is read back. -/
theorem readsBack_hi : ReadsBack 1 [0x68, 0x69] :=
  (readsBack_iff_length_lt (by decide) (by decide)).mpr (by decide)

/-- A text frame of 65536 bytes announces an empty payload. -/
theorem not_readsBack_65536 : ¬ ReadsBack 1 (List.replicate 65536 0x61) := by
  intro readsBack
  have small : (List.replicate 65536 (0x61 : UInt8)).length < 2 ^ 32 := by
    rw [List.length_replicate]
    omega
  have lengths := announcedLength_eq_of_readsBack (by decide) small readsBack
  rw [announcedLength_eq_iff, List.length_replicate] at lengths
  omega

end Jabsocket
