import Jabsocket.Handshake

/-!
# Text as a format

The strings of a request are stored with `vsnprintf`, and the text from the network is the format.
A pair of percent signs is stored as one, so that the stored text agrees with the text up to the
middle of its first run of percent signs; any other percent sign has no argument.
-/

namespace Jabsocket

/-- The number of bytes for which a text and the output for it as a format agree, when there is a
percent sign: the text in front of the first run of percent signs, and half of that run. -/
def literalLength (format : List UInt8) : Nat :=
  (format.takeWhile (· ≠ 37)).length +
    ((format.dropWhile (· ≠ 37)).takeWhile (· = 37)).length / 2

/-- A text which a string of the given capacity stores as it is: there is no percent sign, or all
of them come in pairs and the capacity cuts the text inside the first run of them. -/
def Literal (capacity : Nat) (format : List UInt8) : Prop :=
  37 ∉ format ∨ (expandFormat format).isSome = true ∧ capacity - 1 ≤ literalLength format

instance (capacity : Nat) (format : List UInt8) : Decidable (Literal capacity format) :=
  inferInstanceAs (Decidable (_ ∨ _))

/-- The format is defined, and the string holds its text whatever the library does with formats
which are not defined. -/
structure StoresText (capacity : Nat) (format : List UInt8) (result : Platform → Str) : Prop where
  defined : (expandFormat format).isSome = true
  holds : ∀ platform, (result platform).Holds capacity format

/-! ## Expanding a format -/

theorem mem_of_expandFormat {format expanded : List UInt8} {byte : UInt8}
    (defined : expandFormat format = some expanded) (member : byte ∈ expanded) :
    byte ∈ format := by
  induction format using expandFormat.induct generalizing expanded with
  | case1 => simp_all [expandFormat]
  | case2 => simp_all [expandFormat]
  | case3 byte other => simp_all [expandFormat]
  | case4 rest ih =>
      simp only [expandFormat, if_true, Option.map_eq_some_iff] at defined
      obtain ⟨later, found, rfl⟩ := defined
      obtain rfl | inside := List.mem_cons.mp member
      · simp
      · simp [ih found inside]
  | case5 next rest other => simp [expandFormat, other] at defined
  | case6 first next rest other ih =>
      simp only [expandFormat, other, if_false, Option.map_eq_some_iff] at defined
      obtain ⟨later, found, rfl⟩ := defined
      obtain rfl | inside := List.mem_cons.mp member
      · simp
      · exact List.mem_cons_of_mem _ (ih found inside)

/-- The number of percent signs at the beginning of a format. -/
def leadingPercents (format : List UInt8) : Nat :=
  (format.takeWhile (· = 37)).length

/-- Behind more percent signs than the output has, the output agrees up to its own ones. -/
theorem take_expandFormat_behind {format expanded : List UInt8}
    (defined : expandFormat format = some expanded) (more count : Nat) :
    expanded.take count = (List.replicate (more + 1) 37 ++ format).take count ↔
      count ≤ leadingPercents format / 2 := by
  induction format using expandFormat.induct generalizing expanded more count with
  | case1 =>
      obtain rfl : [] = expanded := by simpa [expandFormat] using defined
      cases count <;> simp [leadingPercents, List.replicate_succ]
  | case2 => simp [expandFormat] at defined
  | case3 byte other =>
      obtain rfl : [byte] = expanded := by simpa [expandFormat, other] using defined
      cases count <;> simp [leadingPercents, List.replicate_succ, other]
  | case4 rest ih =>
      simp only [expandFormat, if_true, Option.map_eq_some_iff] at defined
      obtain ⟨later, found, rfl⟩ := defined
      have run : leadingPercents (37 :: 37 :: rest) = leadingPercents rest + 2 := by
        simp [leadingPercents]
      rw [run]
      cases count with
      | zero => simp
      | succ count =>
          have moved : List.replicate more 37 ++ 37 :: 37 :: rest =
              List.replicate (more + 1 + 1) 37 ++ rest := by
            simp [List.replicate_succ', List.append_assoc]
          rw [List.replicate_succ, List.cons_append, List.take_succ_cons, List.take_succ_cons,
            List.cons_inj_right, moved, ih found (more + 1) count]
          omega
  | case5 next rest other => simp [expandFormat, other] at defined
  | case6 first next rest other ih =>
      simp only [expandFormat, other, if_false, Option.map_eq_some_iff] at defined
      obtain ⟨later, found, rfl⟩ := defined
      cases count <;> simp [leadingPercents, List.replicate_succ, other]

theorem take_expandFormat_iff {format expanded : List UInt8}
    (defined : expandFormat format = some expanded) (count : Nat) :
    expanded.take count = format.take count ↔ 37 ∉ format ∨ count ≤ literalLength format := by
  induction format using expandFormat.induct generalizing expanded count with
  | case1 =>
      obtain rfl : [] = expanded := by simpa [expandFormat] using defined
      simp
  | case2 => simp [expandFormat] at defined
  | case3 byte other =>
      obtain rfl : [byte] = expanded := by simpa [expandFormat, other] using defined
      simp [Ne.symm other]
  | case4 rest ih =>
      simp only [expandFormat, if_true, Option.map_eq_some_iff] at defined
      obtain ⟨later, found, rfl⟩ := defined
      have split : literalLength (37 :: 37 :: rest) = leadingPercents rest / 2 + 1 := by
        simp only [literalLength, leadingPercents, ne_eq, not_true_eq_false, decide_false,
          decide_true, Bool.false_eq_true, not_false_eq_true, List.takeWhile_cons_of_neg,
          List.dropWhile_cons_of_neg, List.takeWhile_cons_of_pos, List.length_cons,
          List.length_nil]
        omega
      rw [split]
      cases count with
      | zero => simp
      | succ count =>
          have behind := take_expandFormat_behind found 0 count
          rw [List.replicate_one, List.singleton_append] at behind
          rw [List.take_succ_cons, List.take_succ_cons, List.cons_inj_right, behind]
          simp
  | case5 next rest other => simp [expandFormat, other] at defined
  | case6 first next rest other ih =>
      simp only [expandFormat, other, if_false, Option.map_eq_some_iff] at defined
      obtain ⟨later, found, rfl⟩ := defined
      have split : literalLength (first :: next :: rest) = literalLength (next :: rest) + 1 := by
        simp only [literalLength, List.takeWhile_cons, List.dropWhile_cons, other, decide_true,
          ne_eq, not_false_eq_true, if_true, List.length_cons]
        omega
      rw [split]
      cases count with
      | zero => simp
      | succ count =>
          rw [List.take_succ_cons, List.take_succ_cons, List.cons_inj_right, ih found count]
          simp [Ne.symm other]

/-! ## Storing a text -/

section

variable {str : Str} {capacity : Nat} {format : List UInt8}

/-- `str_set_string` with a text as its format. -/
theorem storesText_iff (sized : str.Sized capacity) (positive : 0 < capacity)
    (plain : 0 ∉ format) :
    StoresText capacity format (fun platform => strSetString platform str format) ↔
      Literal capacity format := by
  cases found : expandFormat format with
  | none =>
      have percent : 37 ∈ format := by
        by_contra literal
        rw [expandFormat_of_plain literal] at found
        cases found
      refine iff_of_false (fun stores => ?_) ?_
      · have defined := stores.defined
        rw [found] at defined
        cases defined
      · simp [Literal, percent, found]
  | some expanded =>
      have output : ∀ platform, formatOutput platform format = expanded := by
        intro platform
        rw [formatOutput, found, Option.getD_some]
      have clean : cstr expanded = expanded :=
        cstr_eq_self fun zero => plain (mem_of_expandFormat found zero)
      have printed := sized.strPrint positive expanded
      rw [clean] at printed
      have literal_iff : Literal capacity format ↔
          expanded.take (capacity - 1) = format.take (capacity - 1) := by
        rw [take_expandFormat_iff found]
        simp [Literal, found]
      rw [literal_iff]
      constructor
      · intro stores
        have holds := stores.holds RequestText.greetingPlatform
        rw [strSetString, output] at holds
        rw [← printed.string_eq, ← holds.string_eq]
      · intro same
        refine ⟨by rw [found]; rfl, fun platform => ?_⟩
        rw [strSetString, output]
        exact ⟨printed.sized, printed.string_eq.trans same, printed.length_eq⟩

end

theorem parseRequestLine_method (platform : Platform) (request : Request) {line token : List UInt8}
    (found : token ∈ (tokens isBlank line)[0]?) :
    (parseRequestLine platform request line).1.methodStr =
      strSetString platform request.methodStr token := by
  rw [parseRequestLine]
  generalize tokens isBlank line = pieces at found ⊢
  rcases pieces with _ | ⟨method, _ | ⟨resource, _ | ⟨protocol, others⟩⟩⟩
  · cases found
  all_goals
    obtain rfl : method = token := by simpa using found
    rfl

theorem parseRequestLine_resource (platform : Platform) (request : Request)
    {line token : List UInt8} (found : token ∈ (tokens isBlank line)[1]?) :
    (parseRequestLine platform request line).1.resourceStr =
      strSetString platform request.resourceStr token := by
  rw [parseRequestLine]
  generalize tokens isBlank line = pieces at found ⊢
  rcases pieces with _ | ⟨method, _ | ⟨resource, _ | ⟨protocol, others⟩⟩⟩
  · cases found
  · cases found
  all_goals
    obtain rfl : resource = token := by simpa using found
    rfl

/-- A token of the request line is stored as it is. -/
structure StoresTokens (request : Request) (line : List UInt8) (methodSize resourceSize : Nat) :
    Prop where
  method : ∀ token ∈ (tokens isBlank line)[0]?,
    StoresText methodSize token fun platform =>
      (parseRequestLine platform request line).1.methodStr
  resource : ∀ token ∈ (tokens isBlank line)[1]?,
    StoresText resourceSize token fun platform =>
      (parseRequestLine platform request line).1.resourceStr

/-- Text is stored as it is exactly when it has no percent sign, or when its percent signs come in
pairs and the capacity cuts it inside the first run of them. -/
theorem storesLiterally_iff {capacity resourceSize : Nat} (positive : 0 < capacity)
    (resource_positive : 0 < resourceSize) :
    (∀ (str : Str) (string : List UInt8), str.Sized capacity → 0 ∉ string →
        (StoresText capacity (trimLeft string)
            (fun platform => strTrimBeginning platform str string) ↔
          Literal capacity (trimLeft string))) ∧
      (∀ dst src : Str, dst.Sized capacity →
        (StoresText capacity (cstr src.buffer) (fun platform => strCopyString platform dst src) ↔
          Literal capacity (cstr src.buffer))) ∧
      ∀ (request : Request) (line : List UInt8), request.methodStr.Sized capacity →
        request.resourceStr.Sized resourceSize → 0 ∉ line →
          (StoresTokens request line capacity resourceSize ↔
            (∀ token ∈ (tokens isBlank line)[0]?, Literal capacity token) ∧
              ∀ token ∈ (tokens isBlank line)[1]?, Literal resourceSize token) := by
  refine ⟨fun str string sized plain => ?_, fun dst src sized => ?_,
    fun request line method_sized resource_sized plain => ?_⟩
  · exact storesText_iff sized positive
      fun zero => plain ((List.dropWhile_sublist isspace).subset zero)
  · exact storesText_iff sized positive (zero_notMem_cstr _)
  · have token_plain : ∀ index : Nat, ∀ token ∈ (tokens isBlank line)[index]?,
        (0 : UInt8) ∉ token :=
      fun index token found zero => plain (mem_of_mem_tokens (List.mem_of_getElem? found) zero)
    have method_iff : ∀ token ∈ (tokens isBlank line)[0]?,
        (StoresText capacity token (fun platform =>
          (parseRequestLine platform request line).1.methodStr) ↔ Literal capacity token) := by
      intro token found
      simp only [parseRequestLine_method _ request found]
      exact storesText_iff method_sized positive (token_plain 0 token found)
    have resource_iff : ∀ token ∈ (tokens isBlank line)[1]?,
        (StoresText resourceSize token (fun platform =>
          (parseRequestLine platform request line).1.resourceStr) ↔
            Literal resourceSize token) := by
      intro token found
      simp only [parseRequestLine_resource _ request found]
      exact storesText_iff resource_sized resource_positive (token_plain 1 token found)
    constructor
    · rintro ⟨method, resource⟩
      exact ⟨fun token found => (method_iff token found).mp (method token found),
        fun token found => (resource_iff token found).mp (resource token found)⟩
    · rintro ⟨method, resource⟩
      exact ⟨fun token found => (method_iff token found).mpr (method token found),
        fun token found => (resource_iff token found).mpr (resource token found)⟩

/-- A value with a pair of percent signs which the capacity cuts off. -/
theorem storesLiterally_cut :
    (0 < 3 ∧ (strLocal 3).Sized 3) ∧
      StoresText 3 (trimLeft (text " a%%b")) fun platform =>
        strTrimBeginning platform (strLocal 3) (text " a%%b") := by
  have sized : (strLocal 3).Sized 3 := strLocal_sized (by decide)
  have positive : 0 < 3 := by decide
  exact ⟨⟨positive, sized⟩, ((storesLiterally_iff positive positive).1 (strLocal 3) (text " a%%b")
    sized (by decide +kernel)).mpr (by decide +kernel)⟩

/-- A pair of percent signs in a value is stored as one. -/
theorem not_storesLiterally_pair :
    ¬ StoresText 64 (trimLeft (text " a%%b")) fun platform =>
      strTrimBeginning platform (strLocal 64) (text " a%%b") := by
  intro stores
  exact absurd (stores.holds RequestText.greetingPlatform).string_eq (by decide +kernel)

end Jabsocket
