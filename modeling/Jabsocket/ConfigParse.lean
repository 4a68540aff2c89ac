import Mathlib.Algebra.Order.Group.Unbundled.Int
import Mathlib.Algebra.BigOperators.Group.List.Basic
import Mathlib.Algebra.Ring.Int.Defs
import Jabsocket.Execution
import Jabsocket.Truncation

/-!
# Reading the configuration

`config_parse` follows the tokens of the YAML scanner with the previous token, the nesting level
and the last key.  The origins which it collects are the items of lists at the second level.
-/

namespace Jabsocket

/-! ## Tokens -/

/-- `yaml_token_t`: the type of a token, and the value of a scalar. -/
inductive YamlToken where
  | noToken
  | streamStart
  | streamEnd
  | versionDirective
  | tagDirective
  | documentStart
  | documentEnd
  | blockSequenceStart
  | blockMappingStart
  | blockEnd
  | flowSequenceStart
  | flowSequenceEnd
  | flowMappingStart
  | flowMappingEnd
  | blockEntry
  | flowEntry
  | key
  | value
  | alias
  | anchor
  | tag
  | scalar (value : List UInt8)
  deriving DecidableEq, Repr

/-- The tokens for which `config_parse` has a case. -/
def YamlToken.expected : YamlToken → Bool
  | .streamStart | .streamEnd | .key | .value | .blockEntry | .blockSequenceStart
  | .blockMappingStart | .blockEnd | .scalar _ => true
  | _ => false

/-- The change of the nesting level at a token. -/
def YamlToken.nesting : YamlToken → Int
  | .blockSequenceStart | .blockMappingStart => 1
  | .blockEnd => -1
  | _ => 0

/-- The blocks which tokens open and do not close. -/
def depth (tokens : List YamlToken) : Int :=
  (tokens.map YamlToken.nesting).sum

/-- The last scalar which stands directly behind a key token, if there is none the given one. -/
def lastKey (name : List UInt8) : List YamlToken → List UInt8
  | .key :: .scalar value :: tokens => lastKey (cstr value) tokens
  | _ :: tokens => lastKey name tokens
  | [] => name

/-! ## Parsing -/

/-- `jsconf_t` as `config_parse` fills it. -/
structure ParsedConf where
  port : Option (List UInt8)
  originList : List (List UInt8)
  cidr : Option (List UInt8)
  host : Option (List UInt8)
  resource : Option (List UInt8)
  logLevel : Int
  maxMessageSize : Int
  maxFrameSize : Int
  deriving DecidableEq, Repr

namespace ParsedConf

/-- `config_create`: only errors are logged by default. -/
def create : ParsedConf :=
  { port := none, originList := [], cidr := none, host := none, resource := none, logLevel := 3
    maxMessageSize := 0, maxFrameSize := 0 }

/-- The settings of a connection: the limits become values of type `size_t`. -/
def jsConf (conf : ParsedConf) : JsConf :=
  { originList := conf.originList, host := conf.host, resource := conf.resource
    maxMessageSize := (conf.maxMessageSize % 2 ^ 64).toNat
    maxFrameSize := (conf.maxFrameSize % 2 ^ 64).toNat }

theorem jsConf_create : create.jsConf = configCreate := by
  decide

end ParsedConf

/-- The names of the log levels in `syslog.h`. -/
def logLevels : List (List UInt8 × Int) :=
  [(text "LOG_EMERG", 0), (text "LOG_ALERT", 1), (text "LOG_CRIT", 2), (text "LOG_ERR", 3),
    (text "LOG_WARNING", 4), (text "LOG_NOTICE", 5), (text "LOG_INFO", 6), (text "LOG_DEBUG", 7)]

/-- The value of a string of decimal digits, up to the first other byte. -/
def digitsValue (string : List UInt8) : Int :=
  (string.takeWhile fun byte => 48 ≤ byte && byte ≤ 57).foldl
    (fun value digit => 10 * value + (digit.toNat - 48 : Int)) 0

/-- `atoi`: the value of `strtol`, which is limited to a `long`, is cut to an `int`. -/
def atoi (string : List UInt8) : Int :=
  let unlimited :=
    match trimLeft string with
    | 43 :: digits => digitsValue digits
    | 45 :: digits => -digitsValue digits
    | digits => digitsValue digits
  (max (-2 ^ 63) (min unlimited (2 ^ 63 - 1))).bmod (2 ^ 32)

/-- `sz_tolower` of a copy made by `strdup`. -/
def lowerCased (value : List UInt8) : List UInt8 :=
  (cstr value).map tolower

/-- The local variables of `config_parse` and the configuration.  Of the previous token only the
type is consulted. -/
structure ConfigParser where
  prevToken : YamlToken
  level : Int
  key : List UInt8
  conf : ParsedConf
  deriving DecidableEq, Repr

namespace ConfigParser

/-- A scalar behind a value token at the first level is the setting of the last key. -/
def setting (conf : ParsedConf) (key value : List UInt8) : ParsedConf :=
  if cstr key = text "port" then { conf with port := some (cstr value) }
  else if cstr key = text "listen" then { conf with cidr := some (cstr value) }
  else if cstr key = text "host" then { conf with host := some (cstr value) }
  else if cstr key = text "resource" then { conf with resource := some (cstr value) }
  else if cstr key = text "log_level" then
    { conf with logLevel := (logLevels.lookup (cstr value)).getD conf.logLevel }
  else if cstr key = text "max_message_size" then
    { conf with maxMessageSize := atoi (cstr value) }
  else if cstr key = text "max_frame_size" then { conf with maxFrameSize := atoi (cstr value) }
  else conf

/-- The case of a scalar token, whose three conditions exclude each other. -/
def scalar (parser : ConfigParser) (value : List UInt8) : ConfigParser :=
  if parser.prevToken = .key then
    { parser with key := strncpy parser.key 0 (cstr value) 128 }
  else if parser.prevToken = .blockEntry ∧ parser.level = 2 ∧ cstr parser.key = text "origin" then
    { parser with
      conf := { parser.conf with originList := lowerCased value :: parser.conf.originList } }
  else if parser.prevToken = .value ∧ parser.level = 1 then
    { parser with conf := setting parser.conf parser.key value }
  else parser

/-- The `switch` over the type of a token; an unexpected token leaves the loop. -/
def switch (parser : ConfigParser) : YamlToken → Option ConfigParser
  | .streamStart | .streamEnd | .key | .value | .blockEntry => some parser
  | .blockSequenceStart | .blockMappingStart => some { parser with level := parser.level + 1 }
  | .blockEnd => some { parser with level := parser.level - 1 }
  | .scalar value => some (parser.scalar value)
  | _ => none

/-- One round of the loop. -/
def step (parser : ConfigParser) (token : YamlToken) : Option ConfigParser :=
  (parser.switch token).map fun next => { next with prevToken := token }

/-- The loop over the tokens.  Behind the last one the scanner produces `YAML_NO_TOKEN`. -/
def loop : ConfigParser → List YamlToken → ParsedConf × Bool
  | parser, [] => (parser.conf, false)
  | parser, token :: tokens =>
      match parser.step token with
      | none => (parser.conf, false)
      | some next => if token = .streamEnd then (next.conf, true) else loop next tokens

/-- The state in front of the loop, with the initial contents of the array `key`. -/
def start (memory : List UInt8) (conf : ParsedConf) : ConfigParser :=
  { prevToken := .noToken, level := 0, key := memory, conf }

end ConfigParser

/-- `config_parse` of a file with the given tokens, if it can be opened. -/
def configParse (memory : List UInt8) (conf : ParsedConf) (file : Option (List YamlToken)) :
    ParsedConf × Bool :=
  match file with
  | none => (conf, false)
  | some tokens => (ConfigParser.start memory conf).loop tokens

/-! ## Positions -/

@[simp] theorem depth_nil : depth [] = 0 := rfl

@[simp] theorem depth_cons (token : YamlToken) (tokens : List YamlToken) :
    depth (token :: tokens) = token.nesting + depth tokens := by
  simp [depth]

@[simp] theorem depth_append (first second : List YamlToken) :
    depth (first ++ second) = depth first + depth second := by
  simp [depth]

theorem lastKey_cons_of_ne {token : YamlToken} (other : token ≠ .key) (name : List UInt8)
    (tokens : List YamlToken) : lastKey name (token :: tokens) = lastKey name tokens := by
  cases token <;> first | rfl | contradiction

theorem lastKey_key_cons_of_ne {token : YamlToken} (other : ∀ value, token ≠ .scalar value)
    (name : List UInt8) (tokens : List YamlToken) :
    lastKey name (.key :: token :: tokens) = lastKey name (token :: tokens) := by
  cases token <;> first | rfl | exact absurd rfl (other _)

theorem lastKey_append_key (name value : List UInt8) (front tokens : List YamlToken) :
    lastKey name (front ++ .key :: .scalar value :: tokens) = lastKey (cstr value) tokens := by
  fun_induction lastKey name front with
  | case1 name earlier front ih => simpa [lastKey] using ih
  | case2 name token front other ih =>
      by_cases key : token = .key
      · subst key
        cases front with
        | nil => rfl
        | cons second front =>
            rw [List.cons_append, List.cons_append, lastKey_key_cons_of_ne]
            · exact ih
            · rintro value rfl
              exact other value front rfl rfl
      · rw [List.cons_append, lastKey_cons_of_ne key, ih]
  | case3 name => rfl

theorem lastKey_of_notMem {tokens : List YamlToken} (keyless : .key ∉ tokens)
    (name : List UInt8) : lastKey name tokens = name := by
  induction tokens with
  | nil => rfl
  | cons token tokens ih =>
      rw [List.mem_cons, not_or] at keyless
      rw [lastKey_cons_of_ne (Ne.symm keyless.1), ih keyless.2]

/-- A short word in the array `key` is compared with all of the scalar copied there. -/
theorem cstr_strncpy_eq_iff {word : List UInt8} {count : Nat} (short : word.length < count)
    (memory value : List UInt8) :
    cstr (strncpy memory 0 (cstr value) count) = word ↔ cstr value = word := by
  rw [strncpy, overwrite_zero]
  rcases lt_or_ge (cstr value).length count with fits | long
  · obtain ⟨padding, padded⟩ : ∃ padding, count - (cstr value).length = padding + 1 :=
      ⟨count - (cstr value).length - 1, by omega⟩
    rw [List.take_of_length_le fits.le, padded, List.replicate_succ, List.append_assoc,
      List.cons_append, cstr_of_terminated (zero_notMem_cstr value)]
  · have plain : 0 ∉ (cstr value).take count := fun member =>
      zero_notMem_cstr value (List.mem_of_mem_take member)
    have cut : ((cstr value).take count).length = count := by simpa using long
    constructor
    · intro same
      have prefix_length : count ≤ word.length := by
        rw [← same, Nat.sub_eq_zero_of_le long, List.replicate_zero, List.append_nil, cstr,
          List.takeWhile_append_of_pos, List.length_append, cut]
        · omega
        · intro byte member
          simpa using ne_of_mem_of_not_mem member plain
      omega
    · rintro rfl
      omega

namespace ConfigParser

theorem isSome_step (parser : ConfigParser) (token : YamlToken) :
    (parser.step token).isSome = token.expected := by
  cases token <;> rfl

theorem prevToken_of_step {parser next : ConfigParser} {token : YamlToken}
    (stepped : parser.step token = some next) : next.prevToken = token := by
  obtain ⟨switched, -, rfl⟩ := Option.map_eq_some_iff.mp stepped
  rfl

theorem level_scalar (parser : ConfigParser) (value : List UInt8) :
    (parser.scalar value).level = parser.level := by
  unfold scalar
  split_ifs <;> rfl

theorem level_of_step {parser next : ConfigParser} {token : YamlToken}
    (stepped : parser.step token = some next) : next.level = parser.level + token.nesting := by
  obtain ⟨switched, found, rfl⟩ := Option.map_eq_some_iff.mp stepped
  cases token <;> cases found <;> simp [YamlToken.nesting, level_scalar, Int.sub_eq_add_neg]

/-- Only a scalar behind a key token changes the array `key`. -/
theorem key_of_step {parser next : ConfigParser} {token : YamlToken}
    (stepped : parser.step token = some next) :
    (∃ value, parser.prevToken = .key ∧ token = .scalar value ∧
      next.key = strncpy parser.key 0 (cstr value) 128) ∨
    ((parser.prevToken = .key → ∀ value, token ≠ .scalar value) ∧ next.key = parser.key) := by
  obtain ⟨switched, found, rfl⟩ := Option.map_eq_some_iff.mp stepped
  cases token with
  | scalar value =>
      obtain rfl : parser.scalar value = switched := Option.some.inj found
      by_cases key : parser.prevToken = .key
      · exact Or.inl ⟨value, key, rfl, by simp [scalar, key]⟩
      · refine Or.inr ⟨fun behind => absurd behind key, ?_⟩
        unfold scalar
        split_ifs <;> rfl
  | _ => cases found <;> exact Or.inr ⟨fun _ _ => nofun, rfl⟩

/-- The next scalar is the item of an origin list. -/
def Listing (parser : ConfigParser) : Prop :=
  parser.prevToken = .blockEntry ∧ parser.level = 2 ∧ cstr parser.key = text "origin"

theorem originList_setting (conf : ParsedConf) (key value : List UInt8) :
    (setting conf key value).originList = conf.originList := by
  unfold setting
  split_ifs <;> rfl

theorem mem_originList_of_step {parser next : ConfigParser} {token : YamlToken}
    (stepped : parser.step token = some next) (url : List UInt8) :
    url ∈ next.conf.originList ↔ url ∈ parser.conf.originList ∨
      ∃ value, token = .scalar value ∧ parser.Listing ∧ lowerCased value = url := by
  obtain ⟨switched, found, rfl⟩ := Option.map_eq_some_iff.mp stepped
  cases token with
  | scalar value =>
      obtain rfl : parser.scalar value = switched := Option.some.inj found
      unfold scalar Listing
      split_ifs with key listing value_token
      · simp [key]
      · simp [listing, eq_comm, or_comm]
      · simp [originList_setting, listing]
      · simp [listing]
  | _ => cases found <;> simp

open Execution

/-- The loop passes over tokens exactly when it expects all of them. -/
theorem exists_run_iff (parser : ConfigParser) (tokens : List YamlToken) :
    (∃ final, run step parser tokens = some final) ↔
      ∀ token ∈ tokens, token.expected = true := by
  induction tokens generalizing parser with
  | nil => simp [run]
  | cons token tokens ih =>
      rw [List.forall_mem_cons, ← isSome_step parser token, Option.isSome_iff_exists]
      constructor
      · rintro ⟨final, execution⟩
        obtain ⟨next, stepped, rest⟩ := run_cons.mp execution
        exact ⟨⟨next, stepped⟩, (ih next).mp ⟨final, rest⟩⟩
      · rintro ⟨⟨next, stepped⟩, later⟩
        obtain ⟨final, rest⟩ := (ih next).mpr later
        exact ⟨final, run_cons.mpr ⟨next, stepped, rest⟩⟩

theorem prevToken_of_run {parser final : ConfigParser} {tokens : List YamlToken}
    (execution : run step parser tokens = some final) :
    final.prevToken = tokens.getLast?.getD parser.prevToken := by
  induction tokens generalizing parser with
  | nil =>
      obtain rfl := run_nil.mp execution
      rfl
  | cons token tokens ih =>
      obtain ⟨next, stepped, rest⟩ := run_cons.mp execution
      rw [ih rest, prevToken_of_step stepped, List.getLast?_cons, Option.getD_some]

/-- The level is the number of blocks which are open. -/
theorem level_of_run {parser final : ConfigParser} {tokens : List YamlToken}
    (execution : run step parser tokens = some final) :
    final.level = parser.level + depth tokens := by
  induction tokens generalizing parser with
  | nil =>
      obtain rfl := run_nil.mp execution
      simp
  | cons token tokens ih =>
      obtain ⟨next, stepped, rest⟩ := run_cons.mp execution
      rw [ih rest, level_of_step stepped, depth_cons, Int.add_assoc]

/-- The array `key` agrees with the last key as far as short words are concerned. -/
theorem key_of_run {parser final : ConfigParser} {tokens : List YamlToken} {name word : List UInt8}
    (short : word.length < 128) (same : cstr parser.key = word ↔ name = word)
    (execution : run step parser tokens = some final) :
    cstr final.key = word ↔ lastKey name (parser.prevToken :: tokens) = word := by
  induction tokens generalizing parser name with
  | nil =>
      obtain rfl := run_nil.mp execution
      rw [same]
      cases parser.prevToken <;> rfl
  | cons token tokens ih =>
      obtain ⟨next, stepped, rest⟩ := run_cons.mp execution
      have continued := @ih next
      rw [prevToken_of_step stepped] at continued
      obtain ⟨value, behind, rfl, copied⟩ | ⟨other, kept⟩ := key_of_step stepped
      · rw [behind, lastKey, ← @lastKey_cons_of_ne (.scalar value) nofun]
        refine continued ?_ rest
        rw [copied, cstr_strncpy_eq_iff short]
      · rw [@continued name (by rw [kept, same]) rest]
        by_cases behind : parser.prevToken = .key
        · rw [behind, lastKey_key_cons_of_ne (other behind)]
        · rw [lastKey_cons_of_ne behind]

end ConfigParser

/-- A scalar is the item of a list at the second level below the key `origin`. -/
def Listed (memory : List UInt8) (tokens : List YamlToken) (value : List UInt8) : Prop :=
  ∃ front behind, tokens = front ++ .scalar value :: behind ∧
    front.getLast? = some .blockEntry ∧ depth front = 2 ∧
    lastKey (cstr memory) front = text "origin"

namespace ConfigParser

open Execution

theorem listing_iff {memory : List UInt8} {conf : ParsedConf} {reached : ConfigParser}
    {front : List YamlToken} (execution : run step (start memory conf) front = some reached) :
    reached.Listing ↔ front.getLast? = some .blockEntry ∧ depth front = 2 ∧
      lastKey (cstr memory) front = text "origin" := by
  have key_iff := @key_of_run _ _ _ _ (text "origin") (by decide) Iff.rfl execution
  rw [Listing, prevToken_of_run execution, level_of_run execution, key_iff]
  refine and_congr ?_ (and_congr ?_ Iff.rfl)
  · cases front.getLast? <;> simp [start]
  · simp [start]

/-- The origins collected are those which are listed. -/
theorem mem_originList_iff {memory : List UInt8} {conf : ParsedConf} {final : ConfigParser}
    {tokens : List YamlToken} (execution : run step (start memory conf) tokens = some final)
    (url : List UInt8) :
    url ∈ final.conf.originList ↔
      url ∈ conf.originList ∨ ∃ value, Listed memory tokens value ∧ lowerCased value = url := by
  have collected := @iff_caused_of_run _ _ _
    (fun parser : ConfigParser => url ∈ parser.conf.originList) _
    (fun parser token next stepped => mem_originList_of_step stepped url) _ _ _ execution
  rw [collected]
  refine or_congr_right ⟨?_, ?_⟩
  · rintro ⟨front, token, behind, reached, rfl, before, value, rfl, listing, lowered⟩
    exact ⟨value, ⟨front, behind, rfl, (listing_iff before).mp listing⟩, lowered⟩
  · rintro ⟨value, ⟨front, behind, rfl, listing⟩, lowered⟩
    obtain ⟨reached, before, -⟩ := run_append.mp execution
    exact ⟨front, .scalar value, behind, reached, rfl, before, value, rfl,
      (listing_iff before).mpr listing, lowered⟩

theorem loop_of_run {parser final : ConfigParser} {tokens : List YamlToken}
    (unended : .streamEnd ∉ tokens) (execution : run step parser tokens = some final) :
    parser.loop (tokens ++ [.streamEnd]) = (final.conf, true) := by
  induction tokens generalizing parser with
  | nil =>
      obtain rfl := run_nil.mp execution
      rfl
  | cons token tokens ih =>
      rw [List.mem_cons, not_or] at unended
      obtain ⟨next, stepped, rest⟩ := run_cons.mp execution
      rw [List.cons_append, loop, stepped]
      simp only [Ne.symm unended.1, if_false]
      exact ih unended.2 rest

/-- `config_parse` succeeds exactly when every token is expected. -/
theorem loop_succeeds_iff (parser : ConfigParser) {tokens : List YamlToken}
    (unended : .streamEnd ∉ tokens) :
    (parser.loop (tokens ++ [.streamEnd])).2 = true ↔
      ∀ token ∈ tokens, token.expected = true := by
  rw [← exists_run_iff parser]
  constructor
  · intro succeeds
    induction tokens generalizing parser with
    | nil => exact ⟨parser, rfl⟩
    | cons token tokens ih =>
        rw [List.mem_cons, not_or] at unended
        rw [List.cons_append, loop] at succeeds
        split at succeeds
        · cases succeeds
        · rename_i next stepped
          rw [if_neg (Ne.symm unended.1)] at succeeds
          obtain ⟨final, rest⟩ := ih next unended.2 succeeds
          exact ⟨final, run_cons.mpr ⟨next, stepped, rest⟩⟩
  · rintro ⟨final, execution⟩
    rw [loop_of_run unended execution]

end ConfigParser

/-! ## Files with origins -/

/-- The items of a list. -/
def entries (items : List (List UInt8)) : List YamlToken :=
  items.flatMap fun item => [.blockEntry, .scalar item]

/-- The value of the key `origin`: a list which is indented or not, or a single scalar. -/
inductive OriginValue where
  | indented (first : List UInt8) (others : List (List UInt8))
  | unindented (first : List UInt8) (others : List (List UInt8))
  | plain (scalar : List UInt8)
  deriving DecidableEq, Repr

namespace OriginValue

/-- The origins which the value names. -/
def scalars : OriginValue → List (List UInt8)
  | .indented first others => first :: others
  | .unindented first others => first :: others
  | .plain scalar => [scalar]

/-- The tokens which the scanner makes of the value. -/
def tokens : OriginValue → List YamlToken
  | .indented first others => .blockSequenceStart :: entries (first :: others) ++ [.blockEnd]
  | .unindented first others => entries (first :: others)
  | .plain scalar => [.scalar scalar]

/-- The value is an indented list. -/
def isIndented : OriginValue → Bool
  | .indented _ _ => true
  | _ => false

theorem scalars_ne_nil (value : OriginValue) : value.scalars ≠ [] := by
  cases value <;> simp [scalars]

theorem streamEnd_notMem_tokens (value : OriginValue) : .streamEnd ∉ value.tokens := by
  cases value <;> simp [tokens, entries]

end OriginValue

/-- A file which is a block mapping, with a key `origin` among its keys. -/
structure OriginFile where
  /-- The tokens in front of the mapping, such as directives and the start of the document. -/
  header : List YamlToken
  before : List YamlToken
  value : OriginValue
  after : List YamlToken
  /-- The tokens behind the mapping. -/
  trailer : List YamlToken
  header_closed : depth header = 0
  before_closed : depth before = 0
  unended : .streamEnd ∉ header ++ before ++ after ++ trailer

namespace OriginFile

/-- The tokens up to the value of the key `origin`. -/
def opening (file : OriginFile) : List YamlToken :=
  .streamStart :: file.header ++ .blockMappingStart :: file.before ++
    [.key, .scalar (text "origin"), .value]

/-- The tokens in front of the end of the stream. -/
def body (file : OriginFile) : List YamlToken :=
  file.opening ++ file.value.tokens ++ file.after ++ .blockEnd :: file.trailer

/-- All tokens of the file. -/
def tokens (file : OriginFile) : List YamlToken :=
  file.body ++ [.streamEnd]

theorem streamEnd_notMem_body (file : OriginFile) : .streamEnd ∉ file.body := by
  have unended := file.unended
  have value_unended := file.value.streamEnd_notMem_tokens
  simp only [List.mem_append, not_or] at unended
  simp [body, opening, unended, value_unended]

theorem depth_opening (file : OriginFile) : depth file.opening = 1 := by
  simp [opening, file.header_closed, file.before_closed, YamlToken.nesting]

theorem lastKey_opening_append (file : OriginFile) (name : List UInt8)
    {tokens : List YamlToken} (keyless : .key ∉ tokens) :
    lastKey name (file.opening ++ tokens) = text "origin" := by
  have split_opening : file.opening ++ tokens =
      (.streamStart :: file.header ++ .blockMappingStart :: file.before) ++
        .key :: .scalar (text "origin") :: .value :: tokens := by
    simp [opening]
  rw [split_opening, lastKey_append_key, lastKey_of_notMem]
  · decide
  · simpa using keyless

@[simp] theorem depth_entries (items : List (List UInt8)) : depth (entries items) = 0 := by
  induction items with
  | nil => rfl
  | cons item items ih => simpa [entries, YamlToken.nesting] using ih

/-- The items of an indented list are listed. -/
theorem listed_of_indented {file : OriginFile} (indented : file.value.isIndented = true)
    (memory : List UInt8) {scalar : List UInt8} (member : scalar ∈ file.value.scalars) :
    Listed memory file.body scalar := by
  cases value_eq : file.value with
  | indented first others =>
      rw [value_eq] at member
      obtain ⟨front, behind, split_items⟩ := List.append_of_mem member
      rw [OriginValue.scalars] at split_items
      refine ⟨file.opening ++ (.blockSequenceStart :: entries front) ++ [.blockEntry],
        entries behind ++ .blockEnd :: file.after ++ .blockEnd :: file.trailer, ?_, ?_, ?_, ?_⟩
      · simp [body, value_eq, OriginValue.tokens, split_items, entries]
      · rw [List.getLast?_concat]
      · simp [depth_opening, YamlToken.nesting]
      · rw [List.append_assoc]
        exact file.lastKey_opening_append _ (by simp [entries])
  | unindented first others => simp [value_eq, OriginValue.isIndented] at indented
  | plain scalar => simp [value_eq, OriginValue.isIndented] at indented

/-- A pattern is in the list at the beginning or is listed in the file. -/
def Collected (file : OriginFile) (memory : List UInt8) (conf : ParsedConf)
    (pattern : List UInt8) : Prop :=
  pattern ∈ conf.originList ∨ ∃ value, Listed memory file.body value ∧ lowerCased value = pattern

/-- Every token of the file is expected. -/
def Expected (file : OriginFile) : Prop :=
  ∀ token ∈ file.body, token.expected = true

theorem configParse_succeeds_iff (file : OriginFile) (memory : List UInt8) (conf : ParsedConf) :
    (configParse memory conf (some file.tokens)).2 = true ↔ file.Expected :=
  ConfigParser.loop_succeeds_iff _ file.streamEnd_notMem_body

theorem Expected.mem_originList_iff {file : OriginFile} (expected : file.Expected)
    (memory : List UInt8) (conf : ParsedConf) (pattern : List UInt8) :
    pattern ∈ (configParse memory conf (some file.tokens)).1.originList ↔
      file.Collected memory conf pattern := by
  obtain ⟨final, execution⟩ :=
    (ConfigParser.exists_run_iff (ConfigParser.start memory conf) file.body).mpr expected
  have parsed : configParse memory conf (some file.tokens) = (final.conf, true) :=
    ConfigParser.loop_of_run file.streamEnd_notMem_body execution
  rw [parsed, ConfigParser.mem_originList_iff execution, Collected]

/-- The list of the example configuration, with its last item first. -/
example : configParse (List.replicate 128 0) ParsedConf.create
    (some ([.streamStart, .blockMappingStart, .key, .scalar (text "port"), .value,
      .scalar (text "5000"), .key, .scalar (text "origin"), .value, .blockSequenceStart] ++
      entries [text "http://FirstDomain.com", text "http://seconddomain.com"] ++
      [.blockEnd, .key, .scalar (text "max_frame_size"), .value, .scalar (text "64"), .blockEnd,
        .streamEnd])) =
    ({ ParsedConf.create with
      port := some (text "5000"), maxFrameSize := 64
      originList := [text "http://seconddomain.com", text "http://firstdomain.com"] }, true) := by
  decide +kernel

theorem configCheckOrigin_eq_false_iff (platform : Platform) (conf : JsConf)
    (origin : List UInt8) :
    configCheckOrigin platform conf origin = false ↔
      conf.originList ≠ [] ∧ ∀ url ∈ conf.originList, platform.fnmatch url origin = false := by
  simp [configCheckOrigin]

/-- When parsing succeeds the origins which the file names are the ones accepted. -/
def KeepsOrigins (file : OriginFile) (platform : Platform) (memory : List UInt8)
    (conf : ParsedConf) : Prop :=
  (configParse memory conf (some file.tokens)).2 = true →
    (∀ scalar ∈ file.value.scalars,
      lowerCased scalar ∈ (configParse memory conf (some file.tokens)).1.originList) ∧
    ∀ origin, (∀ scalar ∈ file.value.scalars,
        platform.fnmatch (lowerCased scalar) origin = false) →
      configCheckOrigin platform (configParse memory conf (some file.tokens)).1.jsConf origin =
        false

/-- The list of the key `origin` is indented or its items are listed elsewhere, and what else is
listed does not admit other origins. -/
def Recognised (file : OriginFile) (platform : Platform) (memory : List UInt8)
    (conf : ParsedConf) : Prop :=
  (file.value.isIndented = true ∨
    ∀ scalar ∈ file.value.scalars, file.Collected memory conf (lowerCased scalar)) ∧
  ∀ pattern, file.Collected memory conf pattern → ∀ origin,
    platform.fnmatch pattern origin = true →
      ∃ scalar ∈ file.value.scalars, platform.fnmatch (lowerCased scalar) origin = true

theorem Recognised.collected {file : OriginFile} {platform : Platform} {memory : List UInt8}
    {conf : ParsedConf} (recognised : file.Recognised platform memory conf)
    {scalar : List UInt8} (member : scalar ∈ file.value.scalars) :
    file.Collected memory conf (lowerCased scalar) := by
  obtain indented | listed := recognised.1
  · exact Or.inr ⟨scalar, listed_of_indented indented memory member, rfl⟩
  · exact listed scalar member

/-- Origins are kept exactly when parsing fails at an unexpected token or the layout of the list
is one which the parser recognises. -/
theorem keepsOrigins_iff (file : OriginFile) (platform : Platform) (memory : List UInt8)
    (conf : ParsedConf) :
    file.KeepsOrigins platform memory conf ↔
      (∃ token ∈ file.body, token.expected = false) ∨ file.Recognised platform memory conf := by
  have unexpected_iff : (∃ token ∈ file.body, token.expected = false) ↔ ¬ file.Expected := by
    simp [Expected]
  rw [KeepsOrigins, configParse_succeeds_iff, unexpected_iff, ← imp_iff_not_or]
  refine imp_congr_right fun expected => ?_
  have listed := expected.mem_originList_iff memory conf
  simp only [configCheckOrigin_eq_false_iff, ParsedConf.jsConf, listed]
  constructor
  · rintro ⟨collected, rejects⟩
    refine ⟨Or.inr collected, fun pattern pattern_collected origin matched => ?_⟩
    by_contra none_matches
    have unmatched : ∀ scalar ∈ file.value.scalars,
        platform.fnmatch (lowerCased scalar) origin = false := by
      simpa using none_matches
    have refused := (rejects origin unmatched).2 pattern pattern_collected
    simp [matched] at refused
  · intro recognised
    refine ⟨fun scalar => recognised.collected, fun origin unmatched => ⟨?_, ?_⟩⟩
    · obtain ⟨scalar, member⟩ := List.exists_mem_of_ne_nil _ file.value.scalars_ne_nil
      exact List.ne_nil_of_mem ((listed _).mpr (recognised.collected member))
    · intro pattern pattern_collected
      by_contra matched
      obtain ⟨scalar, member, scalar_matched⟩ :=
        recognised.2 pattern pattern_collected origin (by simpa using matched)
      simp [unmatched scalar member] at scalar_matched

/-- The list of origins of the example configuration, not indented below its key. -/
def unindentedOrigins : OriginFile :=
  { header := [], before := [], after := [], trailer := []
    value := .unindented (text "http://firstdomain.com") [text "http://seconddomain.com"]
    header_closed := rfl, before_closed := rfl, unended := by decide }

/-- A list which is not indented is passed over without a message. -/
theorem not_keepsOrigins_unindentedOrigins :
    ¬ unindentedOrigins.KeepsOrigins RequestText.wildcardPlatform (List.replicate 128 0)
      ParsedConf.create := by
  intro keeps
  have parsed : configParse (List.replicate 128 0) ParsedConf.create
      (some unindentedOrigins.tokens) = (ParsedConf.create, true) := by decide +kernel
  rw [KeepsOrigins, parsed] at keeps
  have listed := (keeps rfl).1 (text "http://firstdomain.com") (by decide)
  simp [ParsedConf.create] at listed

end OriginFile

end Jabsocket
