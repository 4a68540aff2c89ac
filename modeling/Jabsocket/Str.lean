import Jabsocket.CString

/-!
# Fixed-size strings

`str_t` is a window on a fixed block of memory.  Its contents are always produced by `vsnprintf`
or by bounded copying, so every stored value is cut to the capacity, less the final NUL.
-/

namespace Jabsocket

/-- What the program leaves to its libraries and to the compiler. -/
structure Platform where
  /-- Output of `vsnprintf` for a format with a conversion which has no argument. -/
  undefinedFormat : List UInt8 → List UInt8
  /-- Value of `_find_connection_upgrade` when it reaches its end without `return`, for the
  contents of `connection_str`. -/
  missingReturn : List UInt8 → Int
  /-- `fnmatch(pattern, string, 0) == 0`. -/
  fnmatch : List UInt8 → List UInt8 → Bool
  /-- `SHA1`. -/
  sha1 : List UInt8 → List UInt8

/-- `str_t`: all the bytes of the buffer, the length field and the capacity. -/
structure Str where
  buffer : List UInt8
  length : Nat
  capacity : Nat
  deriving DecidableEq, Repr

/-- Output of a format which is given no arguments, if it is defined. -/
def expandFormat : List UInt8 → Option (List UInt8)
  | [] => some []
  | [byte] => if byte = 37 then none else some [byte]
  | byte :: next :: rest =>
      if byte = 37 then
        if next = 37 then (expandFormat rest).map (37 :: ·) else none
      else (expandFormat (next :: rest)).map (byte :: ·)

/-- What `vsnprintf` writes for a format which is given no arguments. -/
def formatOutput (platform : Platform) (format : List UInt8) : List UInt8 :=
  (expandFormat format).getD (platform.undefinedFormat format)

/-- `str_init` on the given memory. -/
def strInit (buffer : List UInt8) (size : Nat) : Str :=
  { buffer := overwrite buffer 0 [0], length := 0, capacity := size }

/-- `str_clear`. -/
def strClear (str : Str) : Str :=
  { str with buffer := overwrite str.buffer 0 [0], length := 0 }

/-- Store formatted output as `vsnprintf` does, and take the length of what was stored. -/
def strPrint (str : Str) (output : List UInt8) : Str :=
  let buffer :=
    if str.capacity = 0 then str.buffer
    else overwrite str.buffer 0 (output.take (str.capacity - 1) ++ [0])
  { str with buffer, length := (cstr buffer).length }

/-- `str_set_string` without arguments for the format. -/
def strSetString (platform : Platform) (str : Str) (format : List UInt8) : Str :=
  strPrint str (formatOutput platform format)

/-- `str_setn_string`. -/
def strSetnString (str : Str) (string : List UInt8) (maxsize : Nat) : Str :=
  let copied := string.take (if maxsize ≥ str.capacity then str.capacity - 1 else maxsize)
  { str with buffer := overwrite str.buffer 0 (copied ++ [0]), length := copied.length }

/-- `str_copy_string`. -/
def strCopyString (platform : Platform) (dst src : Str) : Str :=
  strSetString platform dst (cstr src.buffer)

/-- `str_trim_beginning`. -/
def strTrimBeginning (platform : Platform) (str : Str) (string : List UInt8) : Str :=
  strSetString platform str (string.dropWhile isspace)

/-- `str_trim_whitespace`. -/
def strTrimWhitespace (platform : Platform) (str : Str) (string : List UInt8) : Str :=
  match inkSpan string with
  | some (first, last) => strSetnString str (string.drop first) (last - first + 1)
  | none => strSetString platform str []

/-- `str_append_char`. -/
def strAppendChar (str : Str) (byte : UInt8) : Str :=
  if str.length + 1 = str.capacity then str
  else { str with buffer := overwrite str.buffer str.length [byte, 0], length := str.length + 1 }

/-- `str_tolower`. -/
def strTolower (str : Str) : Str :=
  { str with buffer := (str.buffer.take str.length).map tolower ++ str.buffer.drop str.length }

/-- `str_is_equal_nocase`. -/
def strIsEqualNocase (str : Str) (other : List UInt8) : Bool :=
  equalNocase (cstr str.buffer) other

/-! ## Stored values -/

/-- The buffer has the bytes which the capacity promises. -/
def Str.Sized (str : Str) (capacity : Nat) : Prop :=
  str.capacity = capacity ∧ str.buffer.length = capacity

/-- The string holds a value, cut to its capacity. -/
structure Str.Holds (str : Str) (capacity : Nat) (value : List UInt8) : Prop where
  sized : str.Sized capacity
  string_eq : cstr str.buffer = value.take (capacity - 1)
  length_eq : str.length = (cstr str.buffer).length

theorem expandFormat_of_plain {format : List UInt8} (plain : 37 ∉ format) :
    expandFormat format = some format := by
  induction format using expandFormat.induct with
  | case1 => rfl
  | case2 => simp at plain
  | case3 byte other => simp [expandFormat, other]
  | case4 rest ih => simp at plain
  | case5 next rest other => simp at plain
  | case6 byte next rest other ih =>
      have later : 37 ∉ next :: rest := fun member => plain (List.mem_cons_of_mem _ member)
      simp [expandFormat, other, ih later]

@[simp] theorem formatOutput_of_plain {platform : Platform} {format : List UInt8}
    (plain : 37 ∉ format) : formatOutput platform format = format := by
  rw [formatOutput, expandFormat_of_plain plain, Option.getD_some]

theorem zero_notMem_take {value : List UInt8} (plain : 0 ∉ value) (count : Nat) :
    0 ∉ value.take count :=
  fun member => plain (List.mem_of_mem_take member)

section

variable {str : Str} {capacity : Nat} {value : List UInt8}

/-- Writing a value and its NUL at the beginning of a sized buffer. -/
theorem cstr_overwrite_terminated (buffer : List UInt8) (plain : 0 ∉ value) :
    cstr (overwrite buffer 0 (value ++ [0])) = value := by
  rw [overwrite_zero, List.append_assoc, List.singleton_append]
  exact cstr_of_terminated plain _

theorem Str.Sized.strInit {buffer : List UInt8} (positive : 0 < capacity)
    (length_eq : buffer.length = capacity) : (strInit buffer capacity).Holds capacity [] := by
  have plain : cstr (overwrite buffer 0 ([] ++ [0])) = [] :=
    cstr_overwrite_terminated buffer (by simp)
  refine ⟨⟨rfl, ?_⟩, by simpa [Jabsocket.strInit] using plain, ?_⟩
  · rw [Jabsocket.strInit, length_overwrite (by simp; omega), length_eq]
  · simpa [Jabsocket.strInit] using congrArg List.length plain.symm

/-- What `vsnprintf` stores can be read up to the first NUL of the output. -/
theorem Str.Sized.strPrint (sized : str.Sized capacity) (positive : 0 < capacity)
    (output : List UInt8) : (strPrint str output).Holds capacity (cstr output) := by
  obtain ⟨rfl, length_eq⟩ := sized
  refine ⟨⟨rfl, ?_⟩, ?_, rfl⟩
  · simp only [Jabsocket.strPrint, if_neg (Nat.pos_iff_ne_zero.mp positive)]
    rw [length_overwrite, length_eq]
    simp only [List.length_append, List.length_take, List.length_singleton]
    omega
  · simp only [Jabsocket.strPrint, if_neg (Nat.pos_iff_ne_zero.mp positive), overwrite_zero,
      List.append_assoc, List.singleton_append]
    rw [cstr_append_zero, cstr, cstr, List.take_takeWhile]

theorem Str.Sized.strSetString (platform : Platform) (sized : str.Sized capacity)
    (positive : 0 < capacity) (plain : 0 ∉ value) (literal : 37 ∉ value) :
    (strSetString platform str value).Holds capacity value := by
  have printed := sized.strPrint positive value
  rw [cstr_eq_self plain] at printed
  rwa [Jabsocket.strSetString, formatOutput_of_plain literal]

theorem Str.Sized.strTrimBeginning (platform : Platform) (sized : str.Sized capacity)
    (positive : 0 < capacity) (plain : 0 ∉ value) (literal : 37 ∉ value) :
    (strTrimBeginning platform str value).Holds capacity (trimLeft value) := by
  have kept := (List.dropWhile_sublist isspace (l := value)).subset
  exact sized.strSetString platform positive (fun member => plain (kept member))
    (fun member => literal (kept member))

/-- Copying a held value keeps what the smaller of the two buffers can hold. -/
theorem Str.Holds.strCopyString {other : Str} {size : Nat} (platform : Platform)
    (sized : str.Sized capacity) (positive : 0 < capacity) (holds : other.Holds size value)
    (literal : 37 ∉ value) :
    (strCopyString platform str other).Holds capacity (value.take (size - 1)) := by
  rw [Jabsocket.strCopyString]
  have copied := sized.strSetString platform positive (zero_notMem_cstr other.buffer)
    (by rw [holds.string_eq]; exact fun member => literal (List.mem_of_mem_take member))
  rwa [holds.string_eq] at copied ⊢

theorem Str.Sized.strTrimWhitespace (platform : Platform) (sized : str.Sized capacity)
    (positive : 0 < capacity) (plain : 0 ∉ value) :
    (strTrimWhitespace platform str value).Holds capacity (trim value) := by
  have span := inkSpan_spec value
  cases found : inkSpan value with
  | none =>
      simp only [found] at span
      simp only [Jabsocket.strTrimWhitespace, found, span]
      exact sized.strSetString platform positive (by simp) (by simp)
  | some range =>
      obtain ⟨first, last⟩ := range
      simp only [found] at span
      obtain ⟨ordered, inside, -, taken⟩ := span
      obtain ⟨capacity_eq, length_eq⟩ := sized
      have clean : 0 ∉ value.drop first := fun member => plain (List.mem_of_mem_drop member)
      have copied : (value.drop first).take
          (if last - first + 1 ≥ str.capacity then str.capacity - 1 else last - first + 1) =
            (trim value).take (capacity - 1) := by
        rw [← taken, List.take_take]
        congr 1
        split <;> omega
      simp only [Jabsocket.strTrimWhitespace, found, strSetnString, copied]
      refine ⟨⟨capacity_eq, ?_⟩, ?_, ?_⟩
      · rw [length_overwrite, length_eq]
        simp only [List.length_append, List.length_take, List.length_singleton]
        omega
      · rw [cstr_overwrite_terminated]
        rw [← copied]
        exact zero_notMem_take clean _
      · rw [cstr_overwrite_terminated]
        rw [← copied]
        exact zero_notMem_take clean _

theorem tolower_eq_zero_iff {byte : UInt8} : tolower byte = 0 ↔ byte = 0 := by
  simp only [tolower, Bool.and_eq_true, decide_eq_true_eq]
  split
  · rename_i upper
    have bounds : 65 ≤ byte.toNat ∧ byte.toNat ≤ 90 :=
      ⟨UInt8.le_iff_toNat_le.mp upper.1, UInt8.le_iff_toNat_le.mp upper.2⟩
    rw [← UInt8.toNat_inj, ← UInt8.toNat_inj, UInt8.toNat_add]
    simp only [UInt8.reduceToNat]
    omega
  · rfl

theorem Str.Holds.strTolower (holds : str.Holds capacity value) (positive : 0 < capacity)
    (plain : 0 ∉ value) : (strTolower str).Holds capacity (value.map tolower) := by
  obtain ⟨capacity_eq, length_eq⟩ := holds.sized
  obtain ⟨later, split_buffer⟩ := exists_terminated str.buffer (by
    rw [holds.string_eq, length_eq, List.length_take]
    omega)
  have lowered : (Jabsocket.strTolower str).buffer =
      (value.map tolower).take (capacity - 1) ++ 0 :: later := by
    rw [Jabsocket.strTolower, holds.length_eq, ← List.map_take, ← holds.string_eq]
    conv_lhs => rw [split_buffer]
    simp [cstr_of_terminated (zero_notMem_cstr str.buffer)]
  have clean : 0 ∉ (value.map tolower).take (capacity - 1) := by
    refine zero_notMem_take ?_ _
    simpa [tolower_eq_zero_iff] using plain
  refine ⟨⟨capacity_eq, ?_⟩, ?_, ?_⟩
  · simp only [Jabsocket.strTolower, List.length_append, List.length_map, List.length_take,
      List.length_drop]
    omega
  · rw [lowered, cstr_of_terminated clean]
  · rw [lowered, cstr_of_terminated clean, ← List.map_take, List.length_map,
      ← holds.string_eq, ← holds.length_eq]
    rfl

end

end Jabsocket
