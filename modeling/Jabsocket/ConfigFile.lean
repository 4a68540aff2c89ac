import Jabsocket.ConfigParse

/-!
# Configuration files

A file in block style is a list of settings and of lists.  What `config_parse` makes of it is the
effect of its entries, one after the other: the last setting of a key counts, the items of all lists
of origins are collected, and other keys are ignored.  Every configuration is read back from a file.
-/

namespace Jabsocket

/-- An entry of the mapping in a file. -/
inductive ConfigEntry where
  | setting (key value : List UInt8)
  /-- A list, indented below its key. -/
  | list (key : List UInt8) (items : List (List UInt8))
  deriving DecidableEq, Repr

namespace ConfigEntry

/-- The tokens of an entry. -/
def tokens : ConfigEntry → List YamlToken
  | setting key value => [.key, .scalar key, .value, .scalar value]
  | list key items =>
      [.key, .scalar key, .value, .blockSequenceStart] ++ (entries items ++ [.blockEnd])

/-- The effect of an entry. -/
def apply (conf : ParsedConf) : ConfigEntry → ParsedConf
  | setting key value => ConfigParser.setting conf key value
  | list key items =>
      if cstr key = text "origin" then
        { conf with originList := (items.map lowerCased).reverse ++ conf.originList }
      else conf

end ConfigEntry

/-- The tokens of a file. -/
def fileTokens (file : List ConfigEntry) : List YamlToken :=
  [.streamStart, .blockMappingStart] ++ (file.flatMap ConfigEntry.tokens ++ [.blockEnd])

/-! ## Reading a file -/

namespace ConfigParser

open Execution

/-- The names of the settings are short, so nothing is lost when a key is copied. -/
theorem setting_strncpy (conf : ParsedConf) (memory key value : List UInt8) :
    setting conf (strncpy memory 0 (cstr key) 128) value = setting conf key value := by
  unfold setting
  simp only [cstr_strncpy_eq_iff (show (text "port").length < 128 by decide),
    cstr_strncpy_eq_iff (show (text "listen").length < 128 by decide),
    cstr_strncpy_eq_iff (show (text "host").length < 128 by decide),
    cstr_strncpy_eq_iff (show (text "resource").length < 128 by decide),
    cstr_strncpy_eq_iff (show (text "log_level").length < 128 by decide),
    cstr_strncpy_eq_iff (show (text "max_message_size").length < 128 by decide),
    cstr_strncpy_eq_iff (show (text "max_frame_size").length < 128 by decide)]

/-- The items of a list at the second level. -/
theorem run_entries {parser : ConfigParser} (level : parser.level = 2) (items : List (List UInt8)) :
    ∃ final, run step parser (entries items) = some final ∧ final.level = 2 ∧
      final.key = parser.key ∧
      final.conf =
        if cstr parser.key = text "origin" then
          { parser.conf with
            originList := (items.map lowerCased).reverse ++ parser.conf.originList }
        else parser.conf := by
  induction items generalizing parser with
  | nil => exact ⟨parser, rfl, level, rfl, by simp⟩
  | cons item items ih =>
      have item_step : run step parser [.blockEntry, .scalar item] =
          some { (scalar { parser with prevToken := .blockEntry } item) with
            prevToken := .scalar item } := rfl
      have scalar_eq : scalar { parser with prevToken := .blockEntry } item =
          { parser with
            prevToken := .blockEntry
            conf :=
              if cstr parser.key = text "origin" then
                { parser.conf with
                  originList := lowerCased item :: parser.conf.originList }
              else parser.conf } := by
        unfold scalar
        by_cases origin : cstr parser.key = text "origin" <;> simp [level, origin]
      rw [scalar_eq] at item_step
      obtain ⟨final, later, level', key', conf'⟩ := @ih
        { parser with
          prevToken := .scalar item
          conf :=
            if cstr parser.key = text "origin" then
              { parser.conf with originList := lowerCased item :: parser.conf.originList }
            else parser.conf } level
      refine ⟨final, run_append.mpr ⟨_, item_step, later⟩, level', key', conf'.trans ?_⟩
      by_cases origin : cstr parser.key = text "origin" <;> simp [origin]

/-- One entry has its effect. -/
theorem run_entry {parser : ConfigParser} (level : parser.level = 1) (entry : ConfigEntry) :
    ∃ final, run step parser entry.tokens = some final ∧ final.level = 1 ∧
      final.conf = entry.apply parser.conf := by
  cases entry with
  | setting key value =>
      have outcome : run step parser (ConfigEntry.setting key value).tokens =
          some
            { prevToken := .scalar value
              level := parser.level
              key := strncpy parser.key 0 (cstr key) 128
              conf := setting parser.conf (strncpy parser.key 0 (cstr key) 128) value } := by
        simp [ConfigEntry.tokens, run_cons, run_nil, step, switch, scalar, level]
      exact ⟨_, outcome, level, setting_strncpy parser.conf parser.key key value⟩
  | list key items =>
      have opened : run step parser [.key, .scalar key, .value, .blockSequenceStart] =
          some
            { prevToken := .blockSequenceStart
              level := parser.level + 1
              key := strncpy parser.key 0 (cstr key) 128
              conf := parser.conf } := rfl
      obtain ⟨last, listed, level', -, conf'⟩ := @run_entries
        { prevToken := .blockSequenceStart
          level := parser.level + 1
          key := strncpy parser.key 0 (cstr key) 128
          conf := parser.conf } (by rw [level]; rfl) items
      have closed : run step last [.blockEnd] =
          some { last with prevToken := .blockEnd, level := last.level - 1 } := rfl
      refine ⟨{ last with prevToken := .blockEnd, level := last.level - 1 }, ?_, ?_, ?_⟩
      · exact run_append.mpr ⟨_, opened, run_append.mpr ⟨_, listed, closed⟩⟩
      · rw [level']
        rfl
      · rw [conf', ConfigEntry.apply]
        simp only [cstr_strncpy_eq_iff (show (text "origin").length < 128 by decide)]

theorem run_file {parser : ConfigParser} (level : parser.level = 1) (file : List ConfigEntry) :
    ∃ final, run step parser (file.flatMap ConfigEntry.tokens) = some final ∧ final.level = 1 ∧
      final.conf = file.foldl ConfigEntry.apply parser.conf := by
  induction file generalizing parser with
  | nil => exact ⟨parser, rfl, level, rfl⟩
  | cons entry file ih =>
      obtain ⟨next, first, level', conf'⟩ := run_entry level entry
      obtain ⟨final, later, level'', conf''⟩ := ih level'
      refine ⟨final, run_append.mpr ⟨next, first, later⟩, level'', ?_⟩
      rw [conf'', conf', List.foldl_cons]

end ConfigParser

theorem streamEnd_notMem_fileTokens (file : List ConfigEntry) :
    YamlToken.streamEnd ∉ fileTokens file := by
  have entry_tokens : ∀ entry : ConfigEntry, YamlToken.streamEnd ∉ entry.tokens := by
    intro entry
    cases entry <;> simp [ConfigEntry.tokens, entries]
  simp [fileTokens, entry_tokens]

/-- A file is read entry by entry. -/
theorem configParse_file (memory : List UInt8) (conf : ParsedConf) (file : List ConfigEntry) :
    configParse memory conf (some (fileTokens file ++ [.streamEnd])) =
      (file.foldl ConfigEntry.apply conf, true) := by
  obtain ⟨final, read, -, conf_eq⟩ := @ConfigParser.run_file
    { prevToken := .blockMappingStart, level := 1, key := memory, conf } rfl file
  have closed : Execution.run ConfigParser.step final [.blockEnd] =
      some { final with prevToken := .blockEnd, level := final.level - 1 } := rfl
  have execution : Execution.run ConfigParser.step (ConfigParser.start memory conf)
      (fileTokens file) = some { final with prevToken := .blockEnd, level := final.level - 1 } :=
    Execution.run_append.mpr ⟨_, rfl, Execution.run_append.mpr ⟨_, read, closed⟩⟩
  rw [configParse, ConfigParser.loop_of_run (streamEnd_notMem_fileTokens file) execution, conf_eq]

/-! ## Numbers -/

/-- The decimal digits of a number. -/
def decimalDigits (number : Nat) : List UInt8 :=
  (Nat.toDigits 10 number).map fun digit => UInt8.ofNat digit.toNat

/-- A number as it stands in a file. -/
def decimal (number : Int) : List UInt8 :=
  if number < 0 then 45 :: decimalDigits number.natAbs else decimalDigits number.natAbs

theorem decimalDigits_eq (number : Nat) :
    decimalDigits number =
      (if number < 10 then [] else decimalDigits (number / 10)) ++
        [UInt8.ofNat (48 + number % 10)] := by
  have digit : ∀ value < 10,
      UInt8.ofNat (Nat.digitChar value).toNat = UInt8.ofNat (48 + value) := by
    decide
  unfold decimalDigits
  rw [Nat.toDigits_eq_if (by decide)]
  split
  · rename_i small
    simp [digit number small, Nat.mod_eq_of_lt small]
  · simp [digit (number % 10) (Nat.mod_lt _ (by decide))]

/-- The value of digits, behind which other digits may follow. -/
theorem decimalDigits_spec (number : Nat) :
    (∀ byte ∈ decimalDigits number, 48 ≤ byte ∧ byte ≤ 57) ∧ decimalDigits number ≠ [] ∧
      (decimalDigits number).foldl (fun value digit => 10 * value + (digit.toNat - 48 : Int)) 0 =
        number := by
  have last_digit : ∀ value < 10, 48 ≤ UInt8.ofNat (48 + value) ∧
      UInt8.ofNat (48 + value) ≤ 57 ∧ (UInt8.ofNat (48 + value)).toNat = 48 + value := by
    decide
  induction number using Nat.strongRecOn with
  | _ number ih =>
      obtain ⟨low, high, value⟩ := last_digit (number % 10) (Nat.mod_lt _ (by decide))
      rw [decimalDigits_eq]
      by_cases small : number < 10
      · rw [if_pos small, List.nil_append]
        refine ⟨?_, List.cons_ne_nil _ _, ?_⟩
        · intro byte member
          rw [List.mem_singleton.mp member]
          exact ⟨low, high⟩
        · rw [List.foldl_cons, List.foldl_nil, value]
          omega
      · rw [if_neg small]
        obtain ⟨digits, nonempty, front⟩ := ih (number / 10) (by omega)
        refine ⟨?_, by simp, ?_⟩
        · intro byte member
          rcases List.mem_append.mp member with earlier | final
          · exact digits byte earlier
          · rw [List.mem_singleton.mp final]
            exact ⟨low, high⟩
        · rw [List.foldl_append, front, List.foldl_cons, List.foldl_nil, value]
          omega

theorem digitsValue_decimalDigits (number : Nat) : digitsValue (decimalDigits number) = number := by
  obtain ⟨digits, -, value⟩ := decimalDigits_spec number
  have all : ∀ byte ∈ decimalDigits number, (decide (48 ≤ byte) && decide (byte ≤ 57)) = true := by
    intro byte member
    obtain ⟨low, high⟩ := digits byte member
    simp [low, high]
  rw [digitsValue, List.takeWhile_eq_self_iff.mpr all]
  exact value

/-- `atoi` reads back every `int`. -/
theorem atoi_decimal {number : Int} (low : -2 ^ 31 ≤ number) (high : number < 2 ^ 31) :
    atoi (decimal number) = number := by
  obtain ⟨digits, nonempty, -⟩ := decimalDigits_spec number.natAbs
  have limited : ∀ value : Int, value = number →
      (max (-2 ^ 63) (min value (2 ^ 63 - 1))).bmod (2 ^ 32) = number := by
    rintro value rfl
    rw [min_eq_left (by omega), max_eq_right (by omega)]
    exact Int.bmod_eq_of_le (by omega) (by omega)
  unfold atoi decimal
  by_cases negative : number < 0
  · rw [if_pos negative, show trimLeft (45 :: decimalDigits number.natAbs) =
      45 :: decimalDigits number.natAbs from rfl]
    have value : -digitsValue (decimalDigits number.natAbs) = number := by
      rw [digitsValue_decimalDigits]
      omega
    exact limited _ value
  · rw [if_neg negative]
    obtain ⟨first, rest, digits_eq⟩ := List.exists_cons_of_ne_nil nonempty
    have digit := digits first (by simp [digits_eq])
    have ink : isspace first = false := by
      have bound := UInt8.le_iff_toNat_le.mp digit.1
      unfold isspace
      grind
    have not_plus : first ≠ 43 := by
      rintro rfl
      exact absurd digit.1 (by decide)
    have not_minus : first ≠ 45 := by
      rintro rfl
      exact absurd digit.1 (by decide)
    have trimmed : trimLeft (decimalDigits number.natAbs) = decimalDigits number.natAbs := by
      rw [digits_eq, trimLeft, List.dropWhile_cons, ink]
      rfl
    refine limited _ ?_
    rw [trimmed]
    have value := digitsValue_decimalDigits number.natAbs
    split
    · rename_i later same
      rw [digits_eq] at same
      exact absurd (List.cons.inj same).1 not_plus
    · rename_i later same
      rw [digits_eq] at same
      exact absurd (List.cons.inj same).1 not_minus
    · rw [value]
      omega

/-! ## Writing a configuration -/

namespace ParsedConf

/-- The name of a log level. -/
def levelName (level : Int) : List UInt8 :=
  ((logLevels.find? fun entry => entry.2 == level).map Prod.fst).getD []

/-- A setting which need not be there. -/
def optional (key : List UInt8) (value : Option (List UInt8)) : List ConfigEntry :=
  value.toList.map (.setting key)

/-- The file for a configuration; the first origin of the list is written last. -/
def file (conf : ParsedConf) : List ConfigEntry :=
  optional (text "port") conf.port ++ optional (text "listen") conf.cidr ++
    optional (text "host") conf.host ++ optional (text "resource") conf.resource ++
    [.setting (text "log_level") (levelName conf.logLevel),
      .setting (text "max_message_size") (decimal conf.maxMessageSize),
      .setting (text "max_frame_size") (decimal conf.maxFrameSize)] ++
    if conf.originList = [] then [] else [.list (text "origin") conf.originList.reverse]

/-- A configuration which a file can describe: its texts are C strings, its origins are in lower
case, its log level has a name, and its limits are values of type `int`. -/
@[mk_iff] structure Writable (conf : ParsedConf) : Prop where
  texts : ∀ value ∈ conf.port.toList ++ conf.cidr.toList ++ conf.host.toList ++
    conf.resource.toList, 0 ∉ value
  origins : ∀ origin ∈ conf.originList, lowerCased origin = origin
  level : conf.logLevel ∈ logLevels.map Prod.snd
  message_low : -2 ^ 31 ≤ conf.maxMessageSize
  message_high : conf.maxMessageSize < 2 ^ 31
  frame_low : -2 ^ 31 ≤ conf.maxFrameSize
  frame_high : conf.maxFrameSize < 2 ^ 31

instance (conf : ParsedConf) : Decidable conf.Writable :=
  decidable_of_iff _ (writable_iff conf).symm

theorem lookup_levelName {level : Int} (named : level ∈ logLevels.map Prod.snd) :
    logLevels.lookup (cstr (levelName level)) = some level := by
  have all : ∀ level ∈ logLevels.map Prod.snd,
      logLevels.lookup (cstr (levelName level)) = some level := by
    decide +kernel
  exact all level named

theorem zero_notMem_decimal (number : Int) : 0 ∉ decimal number := by
  have digits := (decimalDigits_spec number.natAbs).1
  have plain : 0 ∉ decimalDigits number.natAbs := fun zero =>
    absurd (digits 0 zero).1 (by decide)
  unfold decimal
  split_ifs
  · simp [plain]
  · exact plain

/-- An optional setting is stored in one field. -/
theorem foldl_optional {conf : ParsedConf} {key : List UInt8}
    (store : Option (List UInt8) → ParsedConf) (unset : store none = conf)
    (stored : ∀ value, ConfigParser.setting conf key value = store (some (cstr value)))
    {value : Option (List UInt8)} (plain : ∀ string ∈ value.toList, 0 ∉ string) :
    (optional key value).foldl ConfigEntry.apply conf = store value := by
  cases value with
  | none => exact unset.symm
  | some string =>
      have whole := cstr_eq_self (plain string (by simp))
      rw [optional, Option.toList_some, List.map_singleton, List.foldl_cons, List.foldl_nil,
        ConfigEntry.apply, stored, whole]

/-- What the settings which have a name change. -/
theorem setting_named (conf : ParsedConf) (value : List UInt8) :
    ConfigParser.setting conf (text "port") value = { conf with port := some (cstr value) } ∧
      ConfigParser.setting conf (text "listen") value = { conf with cidr := some (cstr value) } ∧
      ConfigParser.setting conf (text "host") value = { conf with host := some (cstr value) } ∧
      ConfigParser.setting conf (text "resource") value =
        { conf with resource := some (cstr value) } ∧
      ConfigParser.setting conf (text "log_level") value =
        { conf with logLevel := (logLevels.lookup (cstr value)).getD conf.logLevel } ∧
      ConfigParser.setting conf (text "max_message_size") value =
        { conf with maxMessageSize := atoi (cstr value) } ∧
      ConfigParser.setting conf (text "max_frame_size") value =
        { conf with maxFrameSize := atoi (cstr value) } :=
  ⟨rfl, rfl, rfl, rfl, rfl, rfl, rfl⟩

theorem foldl_origins (conf : ParsedConf) {origins : List (List UInt8)}
    (unset : conf.originList = []) (lowered : ∀ origin ∈ origins, lowerCased origin = origin) :
    (if origins = [] then []
      else [ConfigEntry.list (text "origin") origins.reverse]).foldl ConfigEntry.apply conf =
        { conf with originList := origins } := by
  have key : cstr (text "origin") = text "origin" := by decide +kernel
  have kept : origins.reverse.map lowerCased = origins.reverse :=
    (List.map_congr_left fun origin member => lowered origin (List.mem_reverse.mp member)).trans
      (List.map_id' _)
  by_cases none : origins = []
  · subst none
    rw [if_pos rfl, List.foldl_nil, ← unset]
  · rw [if_neg none, List.foldl_cons, List.foldl_nil, ConfigEntry.apply, if_pos key, kept,
      List.reverse_reverse, unset, List.append_nil]

end ParsedConf

/-- Every configuration which can be written is read back from its file. -/
theorem configParse_writes (memory : List UInt8) {conf : ParsedConf} (writable : conf.Writable) :
    configParse memory ParsedConf.create (some (fileTokens conf.file ++ [.streamEnd])) =
      (conf, true) := by
  have texts := writable.texts
  simp only [List.mem_append, or_imp, forall_and] at texts
  obtain ⟨⟨⟨port_plain, cidr_plain⟩, host_plain⟩, resource_plain⟩ := texts
  have named := ParsedConf.setting_named
  have port := @ParsedConf.foldl_optional .create (text "port")
    (fun port => { ParsedConf.create with port }) rfl (fun value => (named _ value).1) _ port_plain
  have cidr := @ParsedConf.foldl_optional { ParsedConf.create with port := conf.port }
    (text "listen") (fun cidr => { ParsedConf.create with port := conf.port, cidr }) rfl
    (fun value => (named _ value).2.1) _ cidr_plain
  have host := @ParsedConf.foldl_optional
    { ParsedConf.create with port := conf.port, cidr := conf.cidr } (text "host")
    (fun host => { ParsedConf.create with port := conf.port, cidr := conf.cidr, host }) rfl
    (fun value => (named _ value).2.2.1) _ host_plain
  have resource := @ParsedConf.foldl_optional
    { ParsedConf.create with port := conf.port, cidr := conf.cidr, host := conf.host }
    (text "resource")
    (fun resource =>
      { ParsedConf.create with port := conf.port, cidr := conf.cidr, host := conf.host, resource })
    rfl (fun value => (named _ value).2.2.2.1) _ resource_plain
  have message := atoi_decimal writable.message_low writable.message_high
  have frame := atoi_decimal writable.frame_low writable.frame_high
  have decimal_plain := fun number => cstr_eq_self (ParsedConf.zero_notMem_decimal number)
  rw [configParse_file, ParsedConf.file, List.foldl_append, List.foldl_append, List.foldl_append,
    List.foldl_append, List.foldl_append, port, cidr, host, resource]
  simp only [List.foldl_cons, List.foldl_nil, ConfigEntry.apply, named, decimal_plain, message,
    frame, ParsedConf.lookup_levelName writable.level, Option.getD_some]
  rw [ParsedConf.foldl_origins _ rfl writable.origins]

/-- A configuration for two origins, with a limit on frames. -/
def limitedConf : ParsedConf :=
  { port := some (text "8080"), originList := [text "http://b.example", text "http://a.example"]
    cidr := none, host := some (text "chat.example"), resource := none, logLevel := 7
    maxMessageSize := -1, maxFrameSize := 65536 }

/-- What the parser of the library reads in the file of `limitedConf`. -/
def limitedTokens : List YamlToken :=
  [.streamStart, .blockMappingStart,
    .key, .scalar (text "port"), .value, .scalar (text "8080"),
    .key, .scalar (text "host"), .value, .scalar (text "chat.example"),
    .key, .scalar (text "log_level"), .value, .scalar (text "LOG_DEBUG"),
    .key, .scalar (text "max_message_size"), .value, .scalar (text "-1"),
    .key, .scalar (text "max_frame_size"), .value, .scalar (text "65536"),
    .key, .scalar (text "origin"), .value, .blockSequenceStart,
    .blockEntry, .scalar (text "http://a.example"),
    .blockEntry, .scalar (text "http://b.example"), .blockEnd, .blockEnd, .streamEnd]

theorem configParse_writes_limited :
    configParse (List.replicate 128 255) ParsedConf.create (some limitedTokens) =
      (limitedConf, true) := by
  have tokens_eq : fileTokens limitedConf.file ++ [.streamEnd] = limitedTokens := by
    decide +kernel
  have writable : limitedConf.Writable := by
    decide +kernel
  rw [← tokens_eq]
  exact configParse_writes (List.replicate 128 255) writable

end Jabsocket
