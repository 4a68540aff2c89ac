import Jabsocket.Base64
import Jabsocket.Loop
import Jabsocket.Rfc4648
import Mathlib.Logic.Function.Basic

/-!
# Base64 there and back

`base64_encode` and `base64_decode` go through their inputs with an index of type `int`.  The
encoder writes the encoding of RFC 4648 and the decoder reads it back, as long as the index of the
decoder, which counts the characters of the text, does not overflow.
-/

namespace Jabsocket

/-- `INT_MAX`. -/
def intMax : Nat := 2147483647

/-! ## The encoder -/

/-- `i < input_length ? data[i++] : 0`; the increment is undefined when the index overflows. -/
def nextOctet (data : List UInt8) (index : Nat) : Option (UInt8 × Nat) :=
  if index < data.length then
    if index < intMax then some (data.getD index 0, index + 1) else none
  else some (0, index)

/-- Three octets of the input as a number of 24 bits, with the index behind them. -/
def nextTriple (data : List UInt8) (index : Nat) : Option (Nat × Nat) := do
  let (octetA, index) ← nextOctet data index
  let (octetB, index) ← nextOctet data index
  let (octetC, index) ← nextOctet data index
  return (octetA.toNat <<< 16 + octetB.toNat <<< 8 + octetC.toNat, index)

/-- One round of the loop of `base64_encode`. -/
def encodeRound (data : List UInt8) : Option (Nat × Str) → Round (Option (Nat × Str))
  | none => .leave none
  | some (index, str) =>
      if index < data.length then
        .again ((nextTriple data index).map fun (triple, index) =>
          (index, encodeTriples.encodeTriple str triple))
      else .leave (some (index, str))

/-- What is left for the loop of `base64_encode`. -/
def encodeMeasure (data : List UInt8) : Option (Nat × Str) → Nat
  | none => 0
  | some (index, _) => data.length - index

/-- Padding patched into an encoded text. -/
def padEnd (padding : Nat) (str : Str) : Str :=
  let str :=
    if padding > 0 then { str with buffer := overwrite str.buffer (str.length - 1) (text "=") }
    else str
  if padding > 1 then { str with buffer := overwrite str.buffer (str.length - 2) (text "=") }
  else str

/-- `base64_encode`, with its index; `none` when the index overflows. -/
def base64EncodeInt (data : List UInt8) (str : Str) : Option Str :=
  let padding := [0, 2, 1].getD (data.length % 3) 0
  (Loop.run (encodeRound data) (encodeMeasure data) (some (0, strPrint str []))).map fun state =>
    padEnd padding state.2

/-- Fetching an octet counts it, unless there is none; the index must not overflow. -/
theorem nextOctet_eq {data rest : List UInt8} {index : Nat} (unread : data.drop index = rest)
    (counted : index + rest.length = data.length) (bounded : index ≤ intMax) :
    nextOctet data index =
      if index + min rest.length 1 ≤ intMax then
        some (rest.getD 0 0, index + min rest.length 1)
      else none := by
  subst unread
  cases shape : data.drop index with
  | nil =>
      rw [shape] at counted
      simp only [List.length_nil] at counted ⊢
      rw [nextOctet, if_neg (by omega), if_pos (by omega)]
      rfl
  | cons octet rest =>
      rw [shape] at counted
      simp only [List.length_cons] at counted ⊢
      rw [nextOctet, if_pos (by omega), List.getD_eq_getElem?_getD, ← List.head?_drop, shape,
        show min (rest.length + 1) 1 = 1 by omega]
      rfl

theorem drop_advance {α : Type*} {list rest : List α} {index : Nat}
    (unread : list.drop index = rest) (counted : index + rest.length = list.length) (count : Nat) :
    list.drop (index + min rest.length count) = rest.drop count ∧
      index + min rest.length count + (rest.drop count).length = list.length := by
  refine ⟨?_, ?_⟩
  · rw [← List.drop_drop, unread]
    rcases Nat.le_total rest.length count with short | long
    · rw [Nat.min_eq_left short, List.drop_length, List.drop_eq_nil_of_le short]
    · rw [Nat.min_eq_right long]
  · rw [List.length_drop]
    omega

/-- Up to three octets as a number of 24 bits. -/
def tripleOf (rest : List UInt8) : Nat :=
  (rest.getD 0 0).toNat <<< 16 + (rest.getD 1 0).toNat <<< 8 + (rest.getD 2 0).toNat

/-- Fetching a triple counts its octets. -/
theorem nextTriple_eq {data rest : List UInt8} {index : Nat} (unread : data.drop index = rest)
    (counted : index + rest.length = data.length) (bounded : index ≤ intMax) :
    nextTriple data index =
      if index + min rest.length 3 ≤ intMax then
        some (tripleOf rest, index + min rest.length 3)
      else none := by
  obtain ⟨unreadB, countedB⟩ := drop_advance unread counted 1
  obtain ⟨unreadC, countedC⟩ := drop_advance unreadB countedB 1
  simp only [nextTriple, Option.bind_eq_bind]
  rw [nextOctet_eq unread counted bounded]
  by_cases fitsA : index + min rest.length 1 ≤ intMax
  · rw [if_pos fitsA, Option.bind_some, nextOctet_eq unreadB countedB fitsA]
    by_cases fitsB : index + min rest.length 1 + min (rest.drop 1).length 1 ≤ intMax
    · rw [if_pos fitsB, Option.bind_some, nextOctet_eq unreadC countedC fitsB]
      have lengths : index + min rest.length 1 + min (rest.drop 1).length 1 +
          min ((rest.drop 1).drop 1).length 1 = index + min rest.length 3 := by
        simp only [List.length_drop]
        omega
      rw [lengths]
      split
      · simp [tripleOf, List.getD_eq_getElem?_getD]
      · rfl
    · rw [if_neg fitsB, if_neg (by simp only [List.length_drop] at fitsB; omega)]
      rfl
  · rw [if_neg fitsA, if_neg (by omega)]
    rfl

theorem drop_succ_of_cons {α : Type*} {list rest : List α} {index : Nat} {item : α}
    (unread : list.drop index = item :: rest) : list.drop (index + 1) = rest := by
  rw [← List.drop_drop, unread]
  rfl

theorem nextOctet_bounds {data : List UInt8} {index next : Nat} {octet : UInt8}
    (fetched : nextOctet data index = some (octet, next)) :
    index ≤ next ∧ (index < data.length → index < next) := by
  unfold nextOctet at fetched
  split_ifs at fetched with inside
  · obtain ⟨-, rfl⟩ := Prod.mk.inj (Option.some.inj fetched)
    omega
  · obtain ⟨-, rfl⟩ := Prod.mk.inj (Option.some.inj fetched)
    omega

theorem lt_of_nextTriple {data : List UInt8} {index next triple : Nat}
    (inside : index < data.length) (fetched : nextTriple data index = some (triple, next)) :
    index < next := by
  simp only [nextTriple, Option.bind_eq_bind, Option.bind_eq_some_iff, Prod.exists] at fetched
  obtain ⟨octetA, afterA, fetchedA, octetB, afterB, fetchedB, octetC, afterC, fetchedC, next_eq⟩ :=
    fetched
  obtain ⟨-, rfl⟩ := Prod.mk.inj (Option.some.inj next_eq)
  have boundsA := nextOctet_bounds fetchedA
  have boundsB := nextOctet_bounds fetchedB
  have boundsC := nextOctet_bounds fetchedC
  omega

theorem encodeRound_decreasing (data : List UInt8) :
    Loop.Decreasing (encodeRound data) (encodeMeasure data) := by
  intro state next again
  cases state with
  | none => cases again
  | some state =>
      obtain ⟨index, str⟩ := state
      simp only [encodeRound] at again
      split_ifs at again with inside
      obtain rfl := Round.again.inj again
      cases fetched : nextTriple data index with
      | none =>
          simp only [Option.map_none, encodeMeasure]
          omega
      | some pair =>
          have later := lt_of_nextTriple inside fetched
          simp only [Option.map_some, encodeMeasure]
          omega

/-- One triple at a time. -/
theorem encodeTriples_of_ne_nil {rest : List UInt8} (nonempty : rest ≠ []) (str : Str) :
    encodeTriples rest str =
      encodeTriples (rest.drop 3) (encodeTriples.encodeTriple str (tripleOf rest)) := by
  match rest with
  | [octetA] => simp [encodeTriples, tripleOf]
  | [octetA, octetB] => simp [encodeTriples, tripleOf]
  | octetA :: octetB :: octetC :: rest => simp [encodeTriples, tripleOf]

/-- The loop of `base64_encode` encodes what is left of the input, when the index can count all of
it. -/
theorem encodeLoop_eq {data rest : List UInt8} {index : Nat} (str : Str)
    (unread : data.drop index = rest) (counted : index + rest.length = data.length)
    (bounded : index ≤ intMax) :
    Loop.run (encodeRound data) (encodeMeasure data) (some (index, str)) =
      if data.length ≤ intMax then some (data.length, encodeTriples rest str) else none := by
  induction size_eq : rest.length using Nat.strongRecOn generalizing rest index str with
  | _ size ih =>
      rcases eq_or_ne rest [] with rfl | nonempty
      · have finished : index = data.length := by simpa using counted
        have leave : encodeRound data (some (index, str)) = .leave (some (index, str)) := by
          simp [encodeRound, finished]
        rw [Loop.run_of_leave _ leave, ← finished, if_pos bounded, encodeTriples]
      · have positive := List.length_pos_of_ne_nil nonempty
        have again : encodeRound data (some (index, str)) = .again _ := if_pos (by omega)
        rw [Loop.run_of_again (encodeRound_decreasing data) again,
          nextTriple_eq unread counted bounded]
        by_cases fits : index + min rest.length 3 ≤ intMax
        · obtain ⟨unread', counted'⟩ := drop_advance unread counted 3
          rw [if_pos fits, Option.map_some, encodeTriples_of_ne_nil nonempty]
          have shorter : (rest.drop 3).length < size := by
            rw [List.length_drop]
            omega
          exact ih _ shorter _ unread' counted' fits rfl
        · have overflow : Loop.run (encodeRound data) (encodeMeasure data) none = none :=
            Loop.run_of_leave _ rfl
          rw [if_neg fits, Option.map_none, overflow, if_neg (by omega)]

/-- `base64_encode` is defined exactly when its index can count the input, and then it is what the
handshake uses. -/
theorem base64EncodeInt_eq (data : List UInt8) (str : Str) :
    base64EncodeInt data str =
      if data.length ≤ intMax then some (base64Encode data str) else none := by
  have loop := @encodeLoop_eq data data 0 (strPrint str []) rfl (by omega) (Nat.zero_le intMax)
  unfold base64EncodeInt
  rw [loop]
  split <;> rfl

/-! ## What the encoder writes -/

/-- The string is exactly a value, in a buffer of the given size. -/
structure Str.Stores (str : Str) (capacity : Nat) (value : List UInt8) : Prop where
  sized : str.Sized capacity
  length_eq : str.length = value.length
  buffer_eq : ∃ later, str.buffer = value ++ 0 :: later

theorem overwrite_append {front middle bytes : List UInt8} (same : middle.length = bytes.length)
    (rest : List UInt8) :
    overwrite (front ++ (middle ++ rest)) front.length bytes = front ++ (bytes ++ rest) := by
  rw [overwrite, List.take_left, ← List.drop_drop, List.drop_left, ← same, List.drop_left,
    List.append_assoc]

theorem Str.Stores.append {str : Str} {capacity : Nat} {value : List UInt8}
    (stores : str.Stores capacity value) (byte : UInt8) (room : value.length + 1 < capacity) :
    (strAppendChar str byte).Stores capacity (value ++ [byte]) := by
  obtain ⟨⟨capacity_eq, sized⟩, length_eq, later, buffer_eq⟩ := stores
  rw [strAppendChar, if_neg (by omega)]
  have inside : str.length + [byte, 0].length ≤ str.buffer.length := by
    rw [sized, length_eq]
    exact room
  refine ⟨⟨capacity_eq, (length_overwrite inside).trans sized⟩, by simp [length_eq], ?_⟩
  cases later with
  | nil =>
      simp only [buffer_eq, List.length_append, List.length_singleton] at sized
      omega
  | cons first later =>
      have written := @overwrite_append value [0, first] [byte, 0] rfl later
      refine ⟨later, ?_⟩
      rw [length_eq, buffer_eq]
      simpa using written

/-- The four characters of a triple. -/
def digitsOf (triple : Nat) : List UInt8 := [3, 2, 1, 0].map (encodeSextet triple)

/-- What the loop of `base64_encode` writes, before the padding. -/
def rawText : List UInt8 → List UInt8
  | [] => []
  | [octetA] => digitsOf (octetA.toNat <<< 16)
  | [octetA, octetB] => digitsOf (octetA.toNat <<< 16 + octetB.toNat <<< 8)
  | octetA :: octetB :: octetC :: rest =>
      digitsOf (octetA.toNat <<< 16 + octetB.toNat <<< 8 + octetC.toNat) ++ rawText rest

theorem encodeSextet_eq (triple position : Nat) :
    encodeSextet triple position = Rfc4648.digit (triple / 2 ^ (position * 6) % 64) := by
  have table : ∀ value < 64, encodingTable.getD value 0 = Rfc4648.digit value := by
    decide +kernel
  rw [encodeSextet, Nat.shiftRight_eq_div_pow, show (0x3F : Nat) = 2 ^ 6 - 1 from rfl,
    Nat.and_two_pow_sub_one_eq_mod]
  exact table _ (Nat.mod_lt _ (by decide))

/-- The characters of a triple are its four digits of six bits. -/
theorem digitsOf_eq (octetA octetB octetC : UInt8) :
    digitsOf (octetA.toNat <<< 16 + octetB.toNat <<< 8 + octetC.toNat) =
      [Rfc4648.digit (octetA.toNat / 4),
        Rfc4648.digit (octetA.toNat % 4 * 16 + octetB.toNat / 16),
        Rfc4648.digit (octetB.toNat % 16 * 4 + octetC.toNat / 64),
        Rfc4648.digit (octetC.toNat % 64)] := by
  have boundA := octetA.toNat_lt
  have boundB := octetB.toNat_lt
  have boundC := octetC.toNat_lt
  simp only [digitsOf, List.map_cons, List.map_nil, encodeSextet_eq, Nat.shiftLeft_eq]
  rw [show (octetA.toNat * 2 ^ 16 + octetB.toNat * 2 ^ 8 + octetC.toNat) / 2 ^ (3 * 6) % 64 =
      octetA.toNat / 4 by omega,
    show (octetA.toNat * 2 ^ 16 + octetB.toNat * 2 ^ 8 + octetC.toNat) / 2 ^ (2 * 6) % 64 =
      octetA.toNat % 4 * 16 + octetB.toNat / 16 by omega,
    show (octetA.toNat * 2 ^ 16 + octetB.toNat * 2 ^ 8 + octetC.toNat) / 2 ^ (1 * 6) % 64 =
      octetB.toNat % 16 * 4 + octetC.toNat / 64 by omega,
    show (octetA.toNat * 2 ^ 16 + octetB.toNat * 2 ^ 8 + octetC.toNat) / 2 ^ (0 * 6) % 64 =
      octetC.toNat % 64 by omega]

theorem encodeTriple_stores {str : Str} {capacity : Nat} {value : List UInt8}
    (stores : str.Stores capacity value) (triple : Nat) (room : value.length + 4 < capacity) :
    (encodeTriples.encodeTriple str triple).Stores capacity (value ++ digitsOf triple) := by
  have first := stores.append (encodeSextet triple 3) (by omega)
  have second := first.append (encodeSextet triple 2) (by simp; omega)
  have third := second.append (encodeSextet triple 1) (by simp; omega)
  have fourth := third.append (encodeSextet triple 0) (by simp; omega)
  simpa [encodeTriples.encodeTriple, digitsOf] using fourth

theorem length_digitsOf (triple : Nat) : (digitsOf triple).length = 4 := rfl

/-- The loop of `base64_encode` appends the digits of all triples. -/
theorem encodeTriples_stores (data : List UInt8) {str : Str} {capacity : Nat} {value : List UInt8}
    (stores : str.Stores capacity value)
    (room : value.length + (rawText data).length < capacity) :
    (encodeTriples data str).Stores capacity (value ++ rawText data) := by
  induction data using rawText.induct generalizing str value with
  | case1 => simpa [encodeTriples, rawText] using stores
  | case2 octetA =>
      simp only [rawText, length_digitsOf] at room
      simpa [encodeTriples, rawText] using encodeTriple_stores stores _ room
  | case3 octetA octetB =>
      simp only [rawText, length_digitsOf] at room
      simpa [encodeTriples, rawText] using encodeTriple_stores stores _ room
  | case4 octetA octetB octetC rest ih =>
      simp only [rawText, List.length_append, length_digitsOf] at room
      have first := encodeTriple_stores stores
        (octetA.toNat <<< 16 + octetB.toNat <<< 8 + octetC.toNat) (by omega)
      have later := ih first (by simp only [List.length_append, length_digitsOf]; omega)
      simpa [encodeTriples, rawText] using later

/-- The digits which stand for no octet are where the padding belongs. -/
theorem rawText_padding (data : List UInt8) :
    ∃ front, Rfc4648.encode data =
        front ++ List.replicate ([0, 2, 1].getD (data.length % 3) 0) Rfc4648.pad ∧
      ∃ digits, rawText data = front ++ digits ∧
        digits.length = [0, 2, 1].getD (data.length % 3) 0 := by
  induction data using rawText.induct with
  | case1 => exact ⟨[], by simp [Rfc4648.encode], [], by simp [rawText], rfl⟩
  | case2 octetA =>
      have digits := digitsOf_eq octetA 0 0
      refine ⟨[Rfc4648.digit (octetA.toNat / 4), Rfc4648.digit (octetA.toNat % 4 * 16)], ?_,
        [Rfc4648.digit 0, Rfc4648.digit 0], ?_, rfl⟩
      · simp [Rfc4648.encode, List.replicate]
      · simpa [rawText] using digits
  | case3 octetA octetB =>
      have digits := digitsOf_eq octetA octetB 0
      refine ⟨[Rfc4648.digit (octetA.toNat / 4),
        Rfc4648.digit (octetA.toNat % 4 * 16 + octetB.toNat / 16),
        Rfc4648.digit (octetB.toNat % 16 * 4)], ?_, [Rfc4648.digit 0], ?_, rfl⟩
      · simp [Rfc4648.encode]
      · simpa [rawText] using digits
  | case4 octetA octetB octetC rest ih =>
      obtain ⟨front, encode_eq, digits, raw_eq, length_eq⟩ := ih
      have residue : (octetA :: octetB :: octetC :: rest).length % 3 = rest.length % 3 := by
        simp only [List.length_cons]
        omega
      rw [residue]
      refine ⟨digitsOf (octetA.toNat <<< 16 + octetB.toNat <<< 8 + octetC.toNat) ++ front, ?_,
        digits, ?_, length_eq⟩
      · rw [Rfc4648.encode, encode_eq, digitsOf_eq]
        rfl
      · rw [rawText, raw_eq, List.append_assoc]

/-- One character of a stored value is replaced. -/
theorem Str.Stores.patch {str : Str} {capacity : Nat} {front later : List UInt8} {digit : UInt8}
    (stores : str.Stores capacity (front ++ digit :: later)) (byte : UInt8) {index : Nat}
    (place : index = front.length) :
    { str with buffer := overwrite str.buffer index [byte] }.Stores capacity
      (front ++ byte :: later) := by
  subst place
  obtain ⟨⟨capacity_eq, sized⟩, length_eq, rest, buffer_eq⟩ := stores
  have written := @overwrite_append front [digit] [byte] rfl (later ++ 0 :: rest)
  have inside : front.length + [byte].length ≤ str.buffer.length := by
    simp only [buffer_eq, List.length_append, List.length_cons, List.length_nil]
    omega
  refine ⟨⟨capacity_eq, (length_overwrite inside).trans sized⟩, ?_, rest, ?_⟩
  · simpa using length_eq
  · rw [buffer_eq]
    simpa using written

/-- The padding replaces the last characters. -/
theorem padEnd_stores {str : Str} {capacity padding : Nat} {front digits : List UInt8}
    (stores : str.Stores capacity (front ++ digits)) (length_eq : digits.length = padding)
    (few : padding ≤ 2) :
    (padEnd padding str).Stores capacity (front ++ List.replicate padding Rfc4648.pad) := by
  have total : str.length = front.length + padding := by
    rw [stores.length_eq, List.length_append, length_eq]
  match digits, padding with
  | [], 0 => simpa [padEnd] using stores
  | [digit], 1 => exact stores.patch 61 (by rw [total]; rfl)
  | [first, second], 2 =>
      have last : str.Stores capacity ((front ++ [first]) ++ second :: []) := by simpa using stores
      have place : str.length - 1 = (front ++ [first]).length := by simp [total]
      have patched := last.patch 61 place
      have both : { str with buffer := overwrite str.buffer (str.length - 1) [61] }.Stores capacity
          (front ++ first :: [61]) := by simpa using patched
      exact both.patch 61 (by rw [total]; rfl)

/-- `base64_encode` writes the encoding of RFC 4648. -/
theorem base64Encode_stores {data : List UInt8} {str : Str} {capacity : Nat}
    (sized : str.Sized capacity) (room : (Rfc4648.encode data).length < capacity) :
    (base64Encode data str).Stores capacity (Rfc4648.encode data) := by
  obtain ⟨front, encode_eq, digits, raw_eq, length_eq⟩ := rawText_padding data
  have few : [0, 2, 1].getD (data.length % 3) 0 ≤ 2 :=
    (by decide : ∀ residue < 3, [0, 2, 1].getD residue 0 ≤ 2) _ (Nat.mod_lt _ (by decide))
  have cleared : (strPrint str []).Stores capacity [] := by
    have holds := sized.strPrint (by omega) []
    refine ⟨holds.sized, ?_, str.buffer.drop 1, ?_⟩
    · rw [holds.length_eq, holds.string_eq]
      simp [cstr]
    · simp [strPrint, if_neg (show str.capacity ≠ 0 by rw [sized.1]; omega), overwrite_zero]
  have written := encodeTriples_stores data cleared (by
    rw [encode_eq] at room
    simp only [raw_eq, List.length_append, List.length_nil, length_eq, List.length_replicate]
      at room ⊢
    omega)
  rw [List.nil_append, raw_eq] at written
  rw [encode_eq]
  exact padEnd_stores written length_eq few

/-! ## The decoder -/

/-- `build_decoding_table`, on memory which was not initialized. -/
def buildDecodingTable (memory : Int → UInt8) : Int → UInt8 :=
  (List.range 64).foldl
    (fun table index =>
      Function.update table (encodingTable.getD index 0).toNat (UInt8.ofNat index))
    memory

/-- A `char`, as an `int`. -/
def charValue (byte : UInt8) : Int :=
  if byte.toNat < 128 then byte.toNat else byte.toNat - 256

/-- A `char`, as a `uint32_t`. -/
def charBits (byte : UInt8) : Nat := (charValue byte % 2 ^ 32).toNat

/-- The value of the next character of a text, zero for padding, with the index behind it. -/
def nextSextet (table : Int → UInt8) (data : List UInt8) (index : Nat) : Option (Nat × Nat) :=
  if index < intMax then
    let byte := data.getD index 0
    some (if byte = 61 then 0 else charBits (table (charValue byte)), index + 1)
  else none

/-- Four characters of a text as a `uint32_t`, with the index behind them. -/
def nextGroup (table : Int → UInt8) (data : List UInt8) (index : Nat) : Option (Nat × Nat) := do
  let (sextetA, index) ← nextSextet table data index
  let (sextetB, index) ← nextSextet table data index
  let (sextetC, index) ← nextSextet table data index
  let (sextetD, index) ← nextSextet table data index
  return ((sextetA <<< 18 + sextetB <<< 12 + sextetC <<< 6 + sextetD) % 2 ^ 32, index)

/-- `if (j < *output_length) decoded_data[j++] = ...`, where `j` octets have been written. -/
def pushOctet (outputLength : Nat) (written : List UInt8) (octet : Nat) : Option (List UInt8) :=
  if written.length < outputLength then
    if written.length < intMax then some (written ++ [UInt8.ofNat (octet &&& 0xFF)]) else none
  else some written

/-- One round of the loop of `base64_decode`. -/
def decodeRound (table : Int → UInt8) (data : List UInt8) (outputLength : Nat) :
    Option (Nat × List UInt8) → Round (Option (Nat × List UInt8))
  | none => .leave none
  | some (index, written) =>
      if index < data.length then
        .again do
          let (triple, index) ← nextGroup table data index
          let written ← pushOctet outputLength written (triple >>> 16)
          let written ← pushOctet outputLength written (triple >>> 8)
          let written ← pushOctet outputLength written triple
          return (index, written)
      else .leave (some (index, written))

/-- What is left for the loop of `base64_decode`. -/
def decodeMeasure (data : List UInt8) : Option (Nat × List UInt8) → Nat
  | none => 0
  | some (index, _) => data.length - index

/-- Outcome of `base64_decode`. -/
inductive Decoding where
  /-- The behaviour is undefined. -/
  | undefined
  /-- `NULL` is returned. -/
  | null
  /-- The octets which are returned, and `*output_length`. -/
  | decoded (octets : List UInt8) (outputLength : Nat)
  deriving DecidableEq, Repr

/-- `*output_length`: three octets for every four characters, less one for each padding character
among the last two. -/
def decodedLength (data : List UInt8) : Nat :=
  let outputLength := data.length / 4 * 3
  let outputLength :=
    if data.getD (data.length - 1) 0 = 61 then outputLength - 1 else outputLength
  if data.getD (data.length - 2) 0 = 61 then outputLength - 1 else outputLength

/-- `base64_decode`, with its allocations succeeding.  `memory` and `heap` are what the decoding
table and the octets returned hold before they are written. -/
def base64Decode (memory : Int → UInt8) (heap : Nat → UInt8) (data : List UInt8) : Decoding :=
  if data.length % 4 ≠ 0 then .null
  else if data.length = 0 then .undefined
  else
    let outputLength := decodedLength data
    match Loop.run (decodeRound (buildDecodingTable memory) data outputLength) (decodeMeasure data)
        (some (0, [])) with
    | none => .undefined
    | some (_, written) =>
        .decoded (written ++ (List.range' written.length (outputLength - written.length)).map heap)
          outputLength

theorem foldl_update_range {α β : Type*} [DecidableEq α] {key : Nat → α} {value : Nat → β}
    (memory : α → β) {count index : Nat}
    (injective : ∀ first < count, ∀ second < count, key first = key second → first = second)
    (inside : index < count) :
    (List.range count).foldl (fun table index => Function.update table (key index) (value index))
      memory (key index) = value index := by
  induction count with
  | zero => omega
  | succ count ih =>
      rw [List.range_succ, List.foldl_append, List.foldl_cons, List.foldl_nil,
        Function.update_apply]
      split
      · rename_i same
        rw [injective index inside count (by omega) same]
      · rename_i other
        refine ih (fun first first_lt second second_lt => ?_) ?_
        · exact injective first (by omega) second (by omega)
        · have : index ≠ count := fun same => other (by rw [same])
          omega

/-- The decoding table inverts the digits. -/
theorem buildDecodingTable_digit (memory : Int → UInt8) {value : Nat} (small : value < 64) :
    charBits (buildDecodingTable memory (charValue (Rfc4648.digit value))) = value := by
  have key : charValue (Rfc4648.digit value) = (encodingTable.getD value 0).toNat :=
    (by decide +kernel : ∀ value < 64,
      charValue (Rfc4648.digit value) = (encodingTable.getD value 0).toNat) value small
  have injective : ∀ first < 64, ∀ second < 64,
      ((encodingTable.getD first 0).toNat : Int) = (encodingTable.getD second 0).toNat →
        first = second := by
    intro first first_lt second second_lt same
    have place : ∀ index < 64, encodingTable.idxOf (encodingTable.getD index 0) = index := by
      decide +kernel
    have same_character := UInt8.toNat_inj.mp (Int.ofNat_inj.mp same)
    rw [← place first first_lt, ← place second second_lt, same_character]
  have found := @foldl_update_range Int UInt8 _
    (fun index => ((encodingTable.getD index 0).toNat : Int)) UInt8.ofNat memory 64 value injective
    small
  rw [key, buildDecodingTable, found]
  exact (by decide : ∀ value < 64, charBits (UInt8.ofNat value) = value) value small

/-- The value of a character. -/
def sextetOf (table : Int → UInt8) (byte : UInt8) : Nat :=
  if byte = 61 then 0 else charBits (table (charValue byte))

theorem sextetOf_digit (memory : Int → UInt8) {value : Nat} (small : value < 64) :
    sextetOf (buildDecodingTable memory) (Rfc4648.digit value) = value := by
  have plain : Rfc4648.digit value ≠ 61 := (Rfc4648.digit_plain value).1
  rw [sextetOf, if_neg plain, buildDecodingTable_digit memory small]

theorem nextSextet_eq {table : Int → UInt8} {data rest : List UInt8} {index : Nat} {byte : UInt8}
    (unread : data.drop index = byte :: rest) :
    nextSextet table data index =
      if index < intMax then some (sextetOf table byte, index + 1) else none := by
  have head : data.getD index 0 = byte := by
    rw [List.getD_eq_getElem?_getD, ← List.head?_drop, unread]
    rfl
  simp only [nextSextet, head, sextetOf]

/-- Four characters are fetched, when the index can count them. -/
theorem nextGroup_eq {table : Int → UInt8} {data rest : List UInt8} {index : Nat}
    {byteA byteB byteC byteD : UInt8}
    (unread : data.drop index = byteA :: byteB :: byteC :: byteD :: rest) :
    nextGroup table data index =
      if index + 4 ≤ intMax then
        some ((sextetOf table byteA <<< 18 + sextetOf table byteB <<< 12 +
          sextetOf table byteC <<< 6 + sextetOf table byteD) % 2 ^ 32, index + 4)
      else none := by
  have unreadB := drop_succ_of_cons unread
  have unreadC := drop_succ_of_cons unreadB
  have unreadD := drop_succ_of_cons unreadC
  by_cases fits : index + 4 ≤ intMax
  · simp only [nextGroup, nextSextet_eq unread, nextSextet_eq unreadB, nextSextet_eq unreadC,
      nextSextet_eq unreadD, if_pos (show index < intMax by omega),
      if_pos (show index + 1 < intMax by omega), if_pos (show index + 1 + 1 < intMax by omega),
      if_pos (show index + 1 + 1 + 1 < intMax by omega), if_pos fits, Option.bind_eq_bind,
      Option.bind_some, pure]
  · rw [if_neg fits]
    simp only [nextGroup, nextSextet_eq unread, Option.bind_eq_bind]
    by_cases first : index < intMax
    · rw [if_pos first, Option.bind_some, nextSextet_eq unreadB]
      by_cases second : index + 1 < intMax
      · rw [if_pos second, Option.bind_some, nextSextet_eq unreadC]
        by_cases third : index + 1 + 1 < intMax
        · rw [if_pos third, Option.bind_some, nextSextet_eq unreadD,
            if_neg (show ¬ index + 1 + 1 + 1 < intMax by omega)]
          rfl
        · rw [if_neg third]
          rfl
      · rw [if_neg second]
        rfl
    · rw [if_neg first]
      rfl

theorem pushOctet_of_lt {outputLength octet : Nat} {written : List UInt8} {byte : UInt8}
    (room : written.length < outputLength) (small : written.length < intMax)
    (octet_eq : octet % 256 = byte.toNat) :
    pushOctet outputLength written octet = some (written ++ [byte]) := by
  rw [pushOctet, if_pos room, if_pos small, show (0xFF : Nat) = 2 ^ 8 - 1 from rfl,
    Nat.and_two_pow_sub_one_eq_mod, octet_eq, UInt8.ofNat_toNat]

theorem pushOctet_of_full {outputLength : Nat} {written : List UInt8}
    (full : outputLength ≤ written.length) (octet : Nat) :
    pushOctet outputLength written octet = some written :=
  if_neg (Nat.not_lt.mpr full)

theorem lt_of_nextGroup {table : Int → UInt8} {data : List UInt8} {index next triple : Nat}
    (fetched : nextGroup table data index = some (triple, next)) : index < next := by
  have step {index next sextet : Nat}
      (fetched : nextSextet table data index = some (sextet, next)) : next = index + 1 := by
    unfold nextSextet at fetched
    split_ifs at fetched
    exact (Prod.mk.inj (Option.some.inj fetched)).2.symm
  simp only [nextGroup, Option.bind_eq_bind, Option.bind_eq_some_iff, Prod.exists] at fetched
  obtain ⟨_, afterA, fetchedA, _, afterB, fetchedB, _, afterC, fetchedC, _, afterD, fetchedD,
    next_eq⟩ := fetched
  obtain ⟨-, rfl⟩ := Prod.mk.inj (Option.some.inj next_eq)
  have := step fetchedA
  have := step fetchedB
  have := step fetchedC
  have := step fetchedD
  omega

theorem decodeRound_decreasing (table : Int → UInt8) (data : List UInt8) (outputLength : Nat) :
    Loop.Decreasing (decodeRound table data outputLength) (decodeMeasure data) := by
  intro state next again
  cases state with
  | none => cases again
  | some state =>
      obtain ⟨index, written⟩ := state
      simp only [decodeRound] at again
      split_ifs at again with inside
      have next_eq := Round.again.inj again
      cases next with
      | none =>
          simp only [decodeMeasure]
          omega
      | some next =>
          simp only [Option.bind_eq_bind, Option.bind_eq_some_iff, Prod.exists] at next_eq
          obtain ⟨triple, after, fetched, _, _, _, _, _, _, next_eq⟩ := next_eq
          obtain rfl := Option.some.inj next_eq
          have := lt_of_nextGroup fetched
          simp only [decodeMeasure]
          omega

/-- The octets of a triple, from its four digits. -/
theorem octets_of_digits {a b c : Nat} (small_a : a < 256) (small_b : b < 256) (small_c : c < 256) :
    let triple := ((a / 4) <<< 18 + (a % 4 * 16 + b / 16) <<< 12 + (b % 16 * 4 + c / 64) <<< 6 +
      c % 64) % 2 ^ 32
    (triple >>> 16) % 256 = a ∧ (triple >>> 8) % 256 = b ∧ triple % 256 = c := by
  intro triple
  have sum_eq : (a / 4) <<< 18 + (a % 4 * 16 + b / 16) <<< 12 + (b % 16 * 4 + c / 64) <<< 6 +
      c % 64 = 65536 * a + 256 * b + c := by
    simp only [Nat.shiftLeft_eq]
    omega
  have triple_eq : triple = 65536 * a + 256 * b + c := by
    simp only [triple, sum_eq]
    exact Nat.mod_eq_of_lt (by omega)
  rw [triple_eq, Nat.shiftRight_eq_div_pow, Nat.shiftRight_eq_div_pow]
  omega

/-- Of the three octets of a group, as many are stored as the output has room for. -/
theorem pushOctet_triple {outputLength triple : Nat} {written : List UInt8} {a b c : UInt8}
    (small : written.length + 2 < intMax) (first : (triple >>> 16) % 256 = a.toNat)
    (second : (triple >>> 8) % 256 = b.toNat) (third : triple % 256 = c.toNat) :
    ((pushOctet outputLength written (triple >>> 16)).bind fun written =>
      (pushOctet outputLength written (triple >>> 8)).bind fun written =>
        pushOctet outputLength written triple) =
      some (written ++ [a, b, c].take (outputLength - written.length)) := by
  by_cases full : outputLength ≤ written.length
  · rw [pushOctet_of_full full, Option.bind_some, pushOctet_of_full full, Option.bind_some,
      pushOctet_of_full full, Nat.sub_eq_zero_of_le full, List.take_zero, List.append_nil]
  rw [pushOctet_of_lt (by omega) (by omega) first, Option.bind_some]
  by_cases full : outputLength ≤ (written ++ [a]).length
  · have one : outputLength - written.length = 1 := by
      rw [List.length_append, List.length_singleton] at full
      omega
    rw [pushOctet_of_full full, Option.bind_some, pushOctet_of_full full, one]
    rfl
  rw [pushOctet_of_lt (Nat.not_le.mp full) (by simp; omega) second, Option.bind_some]
  by_cases full' : outputLength ≤ (written ++ [a] ++ [b]).length
  · have two : outputLength - written.length = 2 := by
      simp only [List.length_append, List.length_singleton] at full full'
      omega
    rw [pushOctet_of_full full', two]
    simp
  · have three : 3 ≤ outputLength - written.length := by
      simp only [List.length_append, List.length_singleton] at full'
      omega
    rw [pushOctet_of_lt (Nat.not_le.mp full') (by simp; omega) third,
      List.take_of_length_le (by simpa using three)]
    simp

/-- One group of four characters in the loop of `base64_decode`. -/
theorem decodeLoop_group {table : Int → UInt8} {data rest written : List UInt8}
    {outputLength index : Nat} {byteA byteB byteC byteD a b c : UInt8}
    (unread : data.drop index = byteA :: byteB :: byteC :: byteD :: rest)
    (behind : written.length ≤ index) (sextetA : sextetOf table byteA = a.toNat / 4)
    (sextetB : sextetOf table byteB = a.toNat % 4 * 16 + b.toNat / 16)
    (sextetC : sextetOf table byteC = b.toNat % 16 * 4 + c.toNat / 64)
    (sextetD : sextetOf table byteD = c.toNat % 64) :
    Loop.run (decodeRound table data outputLength) (decodeMeasure data) (some (index, written)) =
      if index + 4 ≤ intMax then
        Loop.run (decodeRound table data outputLength) (decodeMeasure data)
          (some (index + 4, written ++ [a, b, c].take (outputLength - written.length)))
      else none := by
  have inside : index < data.length := by
    by_contra outside
    rw [List.drop_eq_nil_of_le (by omega)] at unread
    cases unread
  have again : decodeRound table data outputLength (some (index, written)) = .again _ :=
    if_pos inside
  rw [Loop.run_of_again (decodeRound_decreasing table data outputLength) again,
    nextGroup_eq unread, sextetA, sextetB, sextetC, sextetD]
  obtain ⟨first, second, third⟩ := octets_of_digits a.toNat_lt b.toNat_lt c.toNat_lt
  by_cases fits : index + 4 ≤ intMax
  · obtain ⟨_, pushedA, later⟩ := Option.bind_eq_some_iff.mp
      (@pushOctet_triple outputLength _ written a b c (by omega) first second third)
    obtain ⟨_, pushedB, pushedC⟩ := Option.bind_eq_some_iff.mp later
    simp only [if_pos fits, Option.bind_eq_bind, Option.bind_some, pushedA, pushedB, pushedC]
    rfl
  · rw [if_neg fits, if_neg fits]
    exact Loop.run_of_leave _ rfl

/-- The loop of `base64_decode` decodes what is left of an encoded text, when the index can count
all of it. -/
theorem decodeLoop_eq (memory : Int → UInt8) {data : List UInt8} {outputLength : Nat}
    (rest : List UInt8) {index : Nat} {written : List UInt8}
    (unread : data.drop index = Rfc4648.encode rest)
    (counted : index + (Rfc4648.encode rest).length = data.length)
    (remaining : outputLength - written.length = rest.length)
    (behind : written.length ≤ index) (bounded : index ≤ intMax) :
    Loop.run (decodeRound (buildDecodingTable memory) data outputLength) (decodeMeasure data)
      (some (index, written)) =
        if data.length ≤ intMax then some (data.length, written ++ rest) else none := by
  have finish {index : Nat} (written : List UInt8) (finished : index = data.length) :
      Loop.run (decodeRound (buildDecodingTable memory) data outputLength) (decodeMeasure data)
        (some (index, written)) = some (data.length, written) := by
    subst finished
    exact Loop.run_of_leave _ (if_neg (Nat.lt_irrefl _))
  have sextet (value : Nat) (small : value < 64) := sextetOf_digit memory small
  induction rest using Rfc4648.encode.induct generalizing index written with
  | case1 =>
      have finished : index = data.length := by simpa [Rfc4648.encode] using counted
      rw [finish written finished, ← finished, if_pos bounded, List.append_nil]
  | case2 a =>
      have small := a.toNat_lt
      rw [Rfc4648.encode] at unread counted
      have last : index + 4 = data.length := counted
      rw [@decodeLoop_group _ _ _ _ _ _ _ _ _ _ a 0 0 unread behind (sextet _ (by omega))
        (sextet _ (by omega)) rfl rfl, finish _ last, last, remaining]
      rfl
  | case3 a b =>
      have smallA := a.toNat_lt
      have smallB := b.toNat_lt
      rw [Rfc4648.encode] at unread counted
      have last : index + 4 = data.length := counted
      rw [@decodeLoop_group _ _ _ _ _ _ _ _ _ _ a b 0 unread behind (sextet _ (by omega))
        (sextet _ (by omega)) (sextet _ (by omega)) rfl, finish _ last, last, remaining]
      rfl
  | case4 a b c rest ih =>
      have smallA := a.toNat_lt
      have smallB := b.toNat_lt
      have smallC := c.toNat_lt
      rw [Rfc4648.encode] at unread counted
      simp only [List.length_cons] at counted remaining
      rw [decodeLoop_group unread behind (sextet _ (by omega)) (sextet _ (by omega))
        (sextet _ (by omega)) (sextet _ (by omega)), List.take_of_length_le (by simp; omega)]
      split
      · rename_i fits
        have later : data.drop (index + 4) = Rfc4648.encode rest := by
          rw [← List.drop_drop, unread]
          rfl
        rw [ih later (by omega) (by simp; omega) (by simp; omega) fits, List.append_assoc]
        rfl
      · rw [if_neg (by omega)]

theorem decodedLength_cons {first second third fourth : UInt8} {later : List UInt8}
    (nonempty : 2 ≤ later.length) (divides : later.length % 4 = 0) :
    decodedLength (first :: second :: third :: fourth :: later) = decodedLength later + 3 := by
  obtain ⟨length, length_eq⟩ : ∃ length, later.length = length + 2 :=
    ⟨later.length - 2, by omega⟩
  have last : (first :: second :: third :: fourth :: later).getD
      ((first :: second :: third :: fourth :: later).length - 1) 0 =
        later.getD (later.length - 1) 0 := by
    simp [length_eq]
  have previous : (first :: second :: third :: fourth :: later).getD
      ((first :: second :: third :: fourth :: later).length - 2) 0 =
        later.getD (later.length - 2) 0 := by
    simp [length_eq]
  simp only [decodedLength]
  rw [last, previous]
  simp only [List.length_cons]
  split_ifs <;> omega

/-- The padding tells the number of octets. -/
theorem decodedLength_encode {data : List UInt8} (nonempty : data ≠ []) :
    decodedLength (Rfc4648.encode data) = data.length := by
  have plain (value : Nat) : ¬ Rfc4648.digit value = 61 := (Rfc4648.digit_plain value).1
  induction data using Rfc4648.encode.induct with
  | case1 => exact absurd rfl nonempty
  | case2 a => simp [Rfc4648.encode, decodedLength, Rfc4648.pad]
  | case3 a b => simp [Rfc4648.encode, decodedLength, Rfc4648.pad, plain]
  | case4 a b c rest ih =>
      rcases eq_or_ne rest [] with rfl | more
      · simp [Rfc4648.encode, decodedLength, plain]
      · have length := Rfc4648.length_encode rest
        have positive := List.length_pos_of_ne_nil more
        rw [Rfc4648.encode, decodedLength_cons (by omega) (by omega), ih more]
        rfl

/-- `base64_decode` decodes an encoding, when its index can count the text. -/
theorem base64Decode_encode (memory : Int → UInt8) (heap : Nat → UInt8) {data : List UInt8}
    (nonempty : data ≠ []) :
    base64Decode memory heap (Rfc4648.encode data) =
      if (Rfc4648.encode data).length ≤ intMax then .decoded data data.length else .undefined := by
  have length := Rfc4648.length_encode data
  have positive := List.length_pos_of_ne_nil nonempty
  have loop := @decodeLoop_eq memory (Rfc4648.encode data) data.length data 0 [] rfl (by omega)
    (by simp) (Nat.zero_le _) (Nat.zero_le _)
  rw [base64Decode, if_neg (by omega), if_neg (by omega)]
  simp only [decodedLength_encode nonempty]
  rw [loop]
  by_cases fits : (Rfc4648.encode data).length ≤ intMax
  · simp [fits]
  · simp [fits]

/-! ## There and back -/

/-- `base64_encode` writes the encoding of the data, and `base64_decode` reads the data back. -/
def RoundTrips (memory : Int → UInt8) (heap : Nat → UInt8) (data : List UInt8) (str : Str) : Prop :=
  ∃ encoded, base64EncodeInt data str = some encoded ∧
    cstr encoded.buffer = Rfc4648.encode data ∧
    encoded.length = 4 * ((data.length + 2) / 3) ∧
    base64Decode memory heap (cstr encoded.buffer) = .decoded data data.length

/-- The index of the decoder overflows in a text which it cannot count. -/
theorem not_roundTrips_of_long (memory : Int → UInt8) (heap : Nat → UInt8) {data : List UInt8}
    (str : Str) (nonempty : data ≠ []) (long : 2 ^ 31 ≤ 4 * ((data.length + 2) / 3)) :
    ¬ RoundTrips memory heap data str := by
  rintro ⟨encoded, -, text_eq, -, decoded⟩
  have limit : intMax = 2147483647 := rfl
  have length := Rfc4648.length_encode data
  rw [text_eq, base64Decode_encode memory heap nonempty, if_neg (by omega)] at decoded
  cases decoded

/-- Encoding and decoding are defined and inverse to each other exactly as long as the text has
fewer characters than an `int` can count. -/
theorem base64_roundTrips_iff (memory : Int → UInt8) (heap : Nat → UInt8) {data : List UInt8}
    {str : Str} {capacity : Nat} (nonempty : data ≠ []) (sized : str.Sized capacity)
    (room : 4 * ((data.length + 2) / 3) < capacity) :
    RoundTrips memory heap data str ↔ 4 * ((data.length + 2) / 3) < 2 ^ 31 := by
  constructor
  · intro trips
    by_contra long
    exact not_roundTrips_of_long memory heap str nonempty (Nat.not_lt.mp long) trips
  · intro short
    have limit : intMax = 2147483647 := rfl
    have length := Rfc4648.length_encode data
    obtain ⟨-, length_eq, later, buffer_eq⟩ := base64Encode_stores sized (length.trans_lt room)
    have text_eq : cstr (base64Encode data str).buffer = Rfc4648.encode data := by
      rw [buffer_eq, cstr_of_terminated (Rfc4648.zero_notMem_encode data)]
    refine ⟨base64Encode data str, ?_, text_eq, length_eq.trans length, ?_⟩
    · rw [base64EncodeInt_eq, if_pos (by omega)]
    · rw [text_eq, base64Decode_encode memory heap nonempty, if_pos (by omega)]

/-- Two octets in a buffer of five bytes, which the text and its NUL fill exactly. -/
theorem base64_roundTrips_exact :
    let str : Str := { buffer := [1, 1, 1, 1, 1], length := 0, capacity := 5 }
    [97, 98] ≠ ([] : List UInt8) ∧ str.Sized 5 ∧
      RoundTrips (fun _ => 0) (fun _ => 0) [97, 98] str :=
  ⟨by decide, ⟨rfl, rfl⟩, (base64_roundTrips_iff _ _ (by decide) ⟨rfl, rfl⟩ (by decide)).mpr
    (by decide)⟩

/-- The text of `3 * 2 ^ 29 + 1` octets has more than `2 ^ 31` characters. -/
theorem base64_roundTrips_overflow :
    let data : List UInt8 := List.replicate (3 * 2 ^ 29 + 1) 0
    let str : Str := { buffer := List.replicate (2 ^ 32) 0, length := 0, capacity := 2 ^ 32 }
    data ≠ [] ∧ str.Sized (2 ^ 32) ∧ 4 * ((data.length + 2) / 3) < 2 ^ 32 ∧
      ¬ RoundTrips (fun _ => 0) (fun _ => 0) data str := by
  intro data str
  have length : data.length = 3 * 2 ^ 29 + 1 := List.length_replicate
  have nonempty : data ≠ [] := List.ne_nil_of_length_pos (by omega)
  refine ⟨nonempty, ⟨rfl, List.length_replicate⟩, by omega, ?_⟩
  exact not_roundTrips_of_long _ _ str nonempty (by omega)

end Jabsocket
