import Mathlib.Algebra.Group.Int.Defs
import Mathlib.Algebra.Group.Nat.Defs
import Mathlib.Data.List.Basic
import Mathlib.Data.List.DropRight
import Mathlib.Tactic.Common
import Jabsocket.Loop

/-!
# C strings

Blocks of memory which hold NUL-terminated strings, the character classes of the C locale, and
`strtok_r`.  Successive calls of `strtok_r` produce the nonempty pieces between the delimiters.
-/

namespace Jabsocket

/-- The bytes of an ASCII text. -/
def text (content : String) : List UInt8 :=
  content.toList.map fun character => UInt8.ofNat character.toNat

/-- The C string at the beginning of a block of memory. -/
def cstr (memory : List UInt8) : List UInt8 :=
  memory.takeWhile fun byte => byte != 0

/-- Store bytes in a block of memory, beginning at the given index. -/
def overwrite (memory : List UInt8) (index : Nat) (bytes : List UInt8) : List UInt8 :=
  memory.take index ++ bytes ++ memory.drop (index + bytes.length)

/-- `strncpy`: exactly `count` bytes are written, the string cut or padded with NULs. -/
def strncpy (memory : List UInt8) (index : Nat) (string : List UInt8) (count : Nat) :
    List UInt8 :=
  overwrite memory index (string.take count ++ List.replicate (count - string.length) 0)

/-- `isspace` in the C locale. -/
def isspace (byte : UInt8) : Bool :=
  byte == 32 || (9 ≤ byte && byte ≤ 13)

/-- `tolower` in the C locale. -/
def tolower (byte : UInt8) : UInt8 :=
  if 65 ≤ byte && byte ≤ 90 then byte + 32 else byte

/-- `strcasecmp` reports equality. -/
def equalNocase (left right : List UInt8) : Bool :=
  left.map tolower == right.map tolower

/-- A string without its leading whitespace. -/
def trimLeft (string : List UInt8) : List UInt8 :=
  string.dropWhile isspace

/-- A string without its leading and trailing whitespace. -/
def trim (string : List UInt8) : List UInt8 :=
  (trimLeft string).rdropWhile isspace

/-! ## Memory -/

theorem cstr_append_zero (string later : List UInt8) :
    cstr (string ++ 0 :: later) = cstr string := by
  simp only [cstr]
  induction string with
  | nil => simp
  | cons byte string ih => simp [List.takeWhile_cons, ih]

theorem zero_notMem_cstr (memory : List UInt8) : 0 ∉ cstr memory := by
  intro member
  simpa using List.mem_takeWhile_imp member

theorem cstr_eq_self {string : List UInt8} (plain : 0 ∉ string) : cstr string = string := by
  rw [cstr, List.takeWhile_eq_self_iff]
  intro byte member
  simpa using ne_of_mem_of_not_mem member plain

theorem cstr_of_terminated {string : List UInt8} (plain : 0 ∉ string) (later : List UInt8) :
    cstr (string ++ 0 :: later) = string := by
  rw [cstr_append_zero, cstr_eq_self plain]

theorem exists_terminated (memory : List UInt8)
    (inside : (cstr memory).length < memory.length) :
    ∃ later, memory = cstr memory ++ 0 :: later := by
  have split_memory := List.takeWhile_append_dropWhile (p := fun byte => byte != 0) (l := memory)
  have head := List.head?_dropWhile_not (fun byte : UInt8 => byte != 0) memory
  rw [← cstr] at split_memory
  cases rest : memory.dropWhile fun byte => byte != 0 with
  | nil =>
      rw [rest, List.append_nil] at split_memory
      rw [split_memory] at inside
      omega
  | cons byte later =>
      rw [rest] at head split_memory
      obtain rfl : byte = 0 := by simpa using head
      exact ⟨later, split_memory.symm⟩

@[simp] theorem length_overwrite {memory : List UInt8} {index : Nat} {bytes : List UInt8}
    (inside : index + bytes.length ≤ memory.length) :
    (overwrite memory index bytes).length = memory.length := by
  simp only [overwrite, List.length_append, List.length_take, List.length_drop]
  omega

theorem overwrite_zero (memory bytes : List UInt8) :
    overwrite memory 0 bytes = bytes ++ memory.drop bytes.length := by
  simp [overwrite]

/-! ## Whitespace -/

theorem trim_eq_nil_iff {string : List UInt8} :
    trim string = [] ↔ ∀ byte ∈ string, isspace byte = true := by
  rw [trim, List.rdropWhile_eq_nil_iff]
  constructor
  · intro spaces byte member
    rw [← List.takeWhile_append_dropWhile (p := isspace) (l := string)] at member
    obtain leading | later := List.mem_append.mp member
    · exact List.mem_takeWhile_imp leading
    · exact spaces byte later
  · intro spaces byte member
    exact spaces byte ((List.dropWhile_sublist isspace).subset member)

theorem mem_of_mem_trim {string : List UInt8} {byte : UInt8} (member : byte ∈ trim string) :
    byte ∈ string :=
  (List.dropWhile_sublist isspace).subset
    ((List.rdropWhile_prefix isspace (trimLeft string)).subset member)

theorem trim_concat_of_space (string : List UInt8) {byte : UInt8} (space : isspace byte = true) :
    trim (string ++ [byte]) = trim string := by
  by_cases blank : ∀ other ∈ string, isspace other = true
  · rw [trim_eq_nil_iff.mpr blank, trim_eq_nil_iff]
    intro other member
    obtain earlier | rfl := by simpa using member
    · exact blank other earlier
    · exact space
  · have kept : string.dropWhile isspace ≠ [] := by
      simpa [List.dropWhile_eq_nil_iff] using blank
    rw [trim, trimLeft, List.dropWhile_append]
    simp only [List.isEmpty_iff, kept, if_false]
    rw [List.rdropWhile_concat_pos _ _ _ space]
    rfl

theorem trimLeft_concat_of_ink (string : List UInt8) {byte : UInt8}
    (ink : isspace byte = false) : trimLeft (string ++ [byte]) = trimLeft string ++ [byte] := by
  rw [trimLeft, List.dropWhile_append]
  split
  · rename_i blank
    simp [trimLeft, List.isEmpty_iff.mp blank, ink]
  · rfl

theorem trim_concat_of_ink (string : List UInt8) {byte : UInt8} (ink : isspace byte = false) :
    trim (string ++ [byte]) = trimLeft string ++ [byte] := by
  rw [trim, trimLeft_concat_of_ink string ink, List.rdropWhile_concat_neg _ _ _ (by simp [ink])]

/-- One round of the loop over a string: remember the first and the last byte of ink. -/
def spanStep (span : Option (Nat × Nat)) (entry : UInt8 × Nat) : Option (Nat × Nat) :=
  if isspace entry.1 then span
  else
    match span with
    | none => some (entry.2, entry.2)
    | some (first, _) => some (first, entry.2)

/-- The first and the last index of a string which hold no whitespace. -/
def inkSpan (string : List UInt8) : Option (Nat × Nat) :=
  string.zipIdx.foldl spanStep none

theorem inkSpan_concat (string : List UInt8) (byte : UInt8) :
    inkSpan (string ++ [byte]) = spanStep (inkSpan string) (byte, string.length) := by
  simp [inkSpan, List.zipIdx_append]

/-- The span of ink is what is left after trimming. -/
theorem inkSpan_spec (string : List UInt8) :
    match inkSpan string with
    | none => trim string = []
    | some (first, last) =>
        first ≤ last ∧ last < string.length ∧ string.drop first = trimLeft string ∧
          (string.drop first).take (last - first + 1) = trim string := by
  induction string using List.reverseRecOn with
  | nil => rfl
  | append_singleton string byte ih =>
      rw [inkSpan_concat]
      cases space : isspace byte with
      | true =>
          simp only [spanStep, space, if_true]
          rw [trim_concat_of_space string space]
          cases found : inkSpan string with
          | none => simpa [found] using ih
          | some span =>
              obtain ⟨first, last⟩ := span
              simp only [found] at ih
              obtain ⟨ordered, inside, left, taken⟩ := ih
              have ink : string.dropWhile isspace ≠ [] := by
                have nonempty : string.drop first ≠ [] := by
                  rw [Ne, List.drop_eq_nil_iff]
                  omega
                rwa [left] at nonempty
              refine ⟨ordered, by simp; omega, ?_, ?_⟩
              · rw [List.drop_append_of_le_length (by omega), left, trimLeft, trimLeft,
                  List.dropWhile_append]
                simp [ink]
              · rw [List.drop_append_of_le_length (by omega), List.take_append_of_le_length, taken]
                rw [List.length_drop]
                omega
      | false =>
          cases found : inkSpan string with
          | none =>
              simp only [found] at ih
              have blank : trimLeft string = [] := by
                rw [trimLeft, List.dropWhile_eq_nil_iff]
                exact trim_eq_nil_iff.mp ih
              simp [spanStep, space, trim_concat_of_ink string space,
                trimLeft_concat_of_ink string space, blank]
          | some span =>
              obtain ⟨first, last⟩ := span
              simp only [found] at ih
              obtain ⟨ordered, inside, left, -⟩ := ih
              simp only [spanStep, space, Bool.false_eq_true, if_false]
              refine ⟨by omega, by simp, ?_, ?_⟩
              · rw [List.drop_append_of_le_length (by omega), left,
                  trimLeft_concat_of_ink string space]
              · rw [List.drop_append_of_le_length (by omega), trim_concat_of_ink string space,
                  ← left, List.take_of_length_le]
                simp only [List.length_append, List.length_drop, List.length_singleton]
                omega

/-! ## Tokens -/

/-- Result of a call of `strtok_r`: the delimiters which were skipped, the token, and what follows
the delimiter which was overwritten with a NUL, if there was one. -/
structure Token where
  skipped : List UInt8
  token : List UInt8
  rest : Option (List UInt8)
  deriving DecidableEq, Repr

/-- A call of `strtok_r` on the string which is left. -/
def strtokR (isDelimiter : UInt8 → Bool) (string : List UInt8) : Option Token :=
  let found := string.dropWhile isDelimiter
  if found.isEmpty then none
  else
    let token := found.takeWhile fun byte => !isDelimiter byte
    some
      { skipped := string.takeWhile isDelimiter
        token := token
        rest := (found.drop token.length).tail? }

/-- One round of a loop over the tokens of a string. -/
def strtokRound (isDelimiter : UInt8 → Bool) (state : List Token × List UInt8) :
    Round (List Token × List UInt8) :=
  match strtokR isDelimiter state.2 with
  | none => .leave state
  | some found => .again (state.1 ++ [found], found.rest.getD [])

/-- All the tokens of a string, and what is left of it after the last one. -/
def strtokLoop (isDelimiter : UInt8 → Bool) (string : List UInt8) : List Token × List UInt8 :=
  Loop.run (strtokRound isDelimiter) (fun state => state.2.length) ([], string)

/-- The tokens which successive calls of `strtok_r` return. -/
def tokens (isDelimiter : UInt8 → Bool) (string : List UInt8) : List (List UInt8) :=
  (strtokLoop isDelimiter string).1.map Token.token

/-- The string in memory after the last call of `strtok_r`. -/
def spoil (isDelimiter : UInt8 → Bool) (string : List UInt8) : List UInt8 :=
  ((strtokLoop isDelimiter string).1.flatMap fun found =>
    found.skipped ++ found.token ++ (if found.rest.isSome then [0] else [])) ++
      (strtokLoop isDelimiter string).2

section

variable {isDelimiter : UInt8 → Bool}

theorem strtokR_eq_none_iff {string : List UInt8} :
    strtokR isDelimiter string = none ↔ string.dropWhile isDelimiter = [] := by
  simp only [strtokR]
  split
  · rename_i exhausted
    simpa using exhausted
  · rename_i token
    simpa using token

theorem strtokR_eq_some {string : List UInt8} {found : Token}
    (call : strtokR isDelimiter string = some found) :
    found.token ≠ [] ∧ (∀ byte ∈ found.token, isDelimiter byte = false) ∧
      ((found.rest = none ∧ string.dropWhile isDelimiter = found.token) ∨
        ∃ delimiter rest, found.rest = some rest ∧ isDelimiter delimiter = true ∧
          string.dropWhile isDelimiter = found.token ++ delimiter :: rest) := by
  simp only [strtokR] at call
  split at call
  · cases call
  rename_i token
  obtain rfl := Option.some.inj call
  have head := List.head?_dropWhile_not isDelimiter string
  generalize string.dropWhile isDelimiter = left at token head ⊢
  refine ⟨?_, fun byte member => ?_, ?_⟩
  · cases left with
    | nil => simp at token
    | cons byte left =>
        have ink : isDelimiter byte = false := by simpa using head
        simp [ink]
  · simpa using List.mem_takeWhile_imp member
  · have split_left :=
      List.takeWhile_append_dropWhile (p := fun byte => !isDelimiter byte) (l := left)
    have dropped : left.drop (left.takeWhile fun byte => !isDelimiter byte).length =
        left.dropWhile fun byte => !isDelimiter byte := by
      conv_lhs => rw [← split_left]
      rw [List.drop_left']
      rw [split_left]
    simp only [dropped]
    have next := List.head?_dropWhile_not (fun byte => !isDelimiter byte) left
    generalize left.dropWhile (fun byte => !isDelimiter byte) = later at split_left next ⊢
    cases later with
    | nil => exact Or.inl ⟨rfl, by simpa using split_left.symm⟩
    | cons delimiter rest =>
        exact Or.inr ⟨delimiter, rest, rfl, by simpa using next, split_left.symm⟩

theorem skipped_of_strtokR {string : List UInt8} {found : Token}
    (call : strtokR isDelimiter string = some found) :
    found.skipped = string.takeWhile isDelimiter := by
  simp only [strtokR] at call
  split at call
  · cases call
  · rw [← Option.some.inj call]

theorem strtokRound_decreasing :
    Loop.Decreasing (strtokRound isDelimiter) fun state => state.2.length := by
  intro state next outcome
  simp only [strtokRound] at outcome
  split at outcome
  · cases outcome
  rename_i found call
  injection outcome with next_eq
  subst next_eq
  obtain ⟨nonempty, -, split_string⟩ := strtokR_eq_some call
  have shorter := (List.dropWhile_sublist isDelimiter (l := state.2)).length_le
  have positive := List.length_pos_of_ne_nil nonempty
  obtain ⟨rest_eq, left_eq⟩ | ⟨delimiter, rest, rest_eq, -, left_eq⟩ := split_string
  · rw [left_eq] at shorter
    simp only [rest_eq, Option.getD_none, List.length_nil]
    omega
  · rw [left_eq, List.length_append, List.length_cons] at shorter
    simp only [rest_eq, Option.getD_some]
    omega

/-- The loop only adds to the tokens it starts with. -/
theorem run_strtokRound (earlier : List Token) (string : List UInt8) :
    Loop.run (strtokRound isDelimiter) (fun state => state.2.length) (earlier, string) =
      (earlier ++ (strtokLoop isDelimiter string).1, (strtokLoop isDelimiter string).2) := by
  induction bound : string.length using Nat.strongRecOn generalizing earlier string with
  | _ bound ih =>
      cases call : strtokR isDelimiter string with
      | none =>
          have leave : ∀ tokens, strtokRound isDelimiter (tokens, string) =
              .leave (tokens, string) := by
            intro tokens
            simp [strtokRound, call]
          rw [strtokLoop, Loop.run_of_leave _ (leave earlier), Loop.run_of_leave _ (leave [])]
          simp
      | some found =>
          have again : ∀ tokens, strtokRound isDelimiter (tokens, string) =
              .again (tokens ++ [found], found.rest.getD []) := by
            intro tokens
            simp [strtokRound, call]
          have shorter := strtokRound_decreasing _ _ (again earlier)
          rw [strtokLoop, Loop.run_of_again strtokRound_decreasing (again earlier),
            Loop.run_of_again strtokRound_decreasing (again []),
            ih _ (by rw [← bound]; exact shorter) _ _ rfl,
            ih _ (by rw [← bound]; exact shorter) _ _ rfl]
          simp

theorem strtokLoop_of_none {string : List UInt8} (call : strtokR isDelimiter string = none) :
    strtokLoop isDelimiter string = ([], string) :=
  Loop.run_of_leave _ (by simp [strtokRound, call])

theorem strtokLoop_of_some {string : List UInt8} {found : Token}
    (call : strtokR isDelimiter string = some found) :
    strtokLoop isDelimiter string =
      (found :: (strtokLoop isDelimiter (found.rest.getD [])).1,
        (strtokLoop isDelimiter (found.rest.getD [])).2) := by
  have again : strtokRound isDelimiter ([], string) = .again ([found], found.rest.getD []) := by
    simp [strtokRound, call]
  rw [strtokLoop, Loop.run_of_again strtokRound_decreasing again, run_strtokRound]
  rfl

@[simp] theorem length_spoil (string : List UInt8) :
    (spoil isDelimiter string).length = string.length := by
  induction bound : string.length using Nat.strongRecOn generalizing string with
  | _ bound ih =>
      cases call : strtokR isDelimiter string with
      | none => simp [spoil, strtokLoop_of_none call, bound]
      | some found =>
          have again : strtokRound isDelimiter ([], string) =
              .again ([found], found.rest.getD []) := by
            simp [strtokRound, call]
          have shorter := strtokRound_decreasing _ _ again
          have later := ih _ (by rw [← bound]; exact shorter) _ rfl
          have skipped := skipped_of_strtokR call
          have total := congrArg List.length
            (List.takeWhile_append_dropWhile (p := isDelimiter) (l := string))
          obtain ⟨-, -, split_string⟩ := strtokR_eq_some call
          simp only [spoil, List.length_append] at later
          simp only [spoil, strtokLoop_of_some call, List.flatMap_cons, List.length_append,
            skipped]
          rw [List.length_append] at total
          obtain ⟨rest_eq, left_eq⟩ | ⟨delimiter, rest, rest_eq, -, left_eq⟩ := split_string
          · simp only [rest_eq, left_eq, Option.getD_none, Option.isSome_none,
              List.length_nil] at later total ⊢
            simp only [Bool.false_eq_true, if_false, List.length_nil]
            omega
          · simp only [rest_eq, left_eq, Option.getD_some, Option.isSome_some, if_true,
              List.length_append, List.length_cons, List.length_nil] at later total ⊢
            omega

theorem filter_splitOnP_dropWhile (string : List UInt8) :
    ((string.dropWhile isDelimiter).splitOnP isDelimiter).filter (fun piece => piece ≠ []) =
      (string.splitOnP isDelimiter).filter fun piece => piece ≠ [] := by
  induction string with
  | nil => rfl
  | cons byte string ih =>
      cases delimiter : isDelimiter byte with
      | true => simpa [delimiter, List.splitOnP_cons_eq_if_modifyHead] using ih
      | false => simp [delimiter]

/-- The tokens are the nonempty pieces between the delimiters. -/
theorem tokens_eq_filter_splitOnP (string : List UInt8) :
    tokens isDelimiter string =
      (string.splitOnP isDelimiter).filter fun piece => piece ≠ [] := by
  induction bound : string.length using Nat.strongRecOn generalizing string with
  | _ bound ih =>
      rw [← filter_splitOnP_dropWhile]
      cases call : strtokR isDelimiter string with
      | none => simp [tokens, strtokLoop_of_none call, strtokR_eq_none_iff.mp call]
      | some found =>
          have again : strtokRound isDelimiter ([], string) =
              .again ([found], found.rest.getD []) := by
            simp [strtokRound, call]
          have shorter := strtokRound_decreasing _ _ again
          have later := ih _ (by rw [← bound]; exact shorter) _ rfl
          obtain ⟨nonempty, ink, split_string⟩ := strtokR_eq_some call
          rw [tokens, strtokLoop_of_some call, List.map_cons, ← tokens, later]
          obtain ⟨rest_eq, left_eq⟩ | ⟨delimiter, rest, rest_eq, isDelim, left_eq⟩ := split_string
          · simp [rest_eq, left_eq, List.splitOnP_eq_singleton ink, nonempty]
          · rw [left_eq, List.splitOnP_append_cons_of_forall_mem ink _ isDelim]
            simp [rest_eq, nonempty]

theorem mem_of_mem_splitOnP {string piece : List UInt8} {byte : UInt8}
    (found : piece ∈ string.splitOnP isDelimiter) (member : byte ∈ piece) : byte ∈ string := by
  induction string generalizing piece with
  | nil =>
      obtain rfl : piece = [] := by simpa using found
      simp at member
  | cons first string ih =>
      rw [List.splitOnP_cons_eq_if_modifyHead] at found
      split at found
      · obtain rfl | later := List.mem_cons.mp found
        · simp at member
        · exact List.mem_cons_of_mem _ (ih later member)
      · obtain ⟨head, pieces, split_string⟩ :=
          List.exists_cons_of_ne_nil (List.splitOnP_ne_nil isDelimiter string)
        rw [split_string, List.modifyHead_cons] at found
        rw [split_string] at ih
        obtain rfl | later := List.mem_cons.mp found
        · obtain rfl | inside := List.mem_cons.mp member
          · simp
          · exact List.mem_cons_of_mem _ (ih (by simp) inside)
        · exact List.mem_cons_of_mem _ (ih (by simp [later]) member)

theorem mem_of_mem_tokens {string token : List UInt8} {byte : UInt8}
    (found : token ∈ tokens isDelimiter string) (member : byte ∈ token) : byte ∈ string := by
  rw [tokens_eq_filter_splitOnP] at found
  exact mem_of_mem_splitOnP (List.mem_filter.mp found).1 member

end

theorem equalNocase_left {left right : List UInt8} (same : equalNocase left right = true)
    (other : List UInt8) : equalNocase left other = equalNocase right other := by
  simp_all [equalNocase]

end Jabsocket
