import Jabsocket.Folding

/-!
# The strings of a request

Every header which the parser knows has a string of its own.  Processing a header stores into the
string of its name only; the string of the protocols is then split in place, so that its length no
longer describes its contents.
-/

namespace Jabsocket

/-- The headers which have a string in `request_t`. -/
inductive Field where
  | host
  | upgrade
  | connection
  | key
  | protocol
  | version
  | origin
  deriving DecidableEq, Repr

namespace Field

/-- The name of the header, as `_process` compares it. -/
def name : Field → List UInt8
  | host => text "host"
  | upgrade => text "upgrade"
  | connection => text "connection"
  | key => text "Sec-WebSocket-Key"
  | protocol => text "Sec-WebSocket-Protocol"
  | version => text "Sec-WebSocket-Version"
  | origin => text "Origin"

/-- The string of a header. -/
def str : Field → Request → Str
  | host => Request.hostStr
  | upgrade => Request.upgradeStr
  | connection => Request.connectionStr
  | key => Request.wsKeyStr
  | protocol => Request.wsProtocolStr
  | version => Request.wsVersionStr
  | origin => Request.originStr

/-- The size of the buffer of a header. -/
def capacity : Field → Nat
  | host => 256
  | upgrade => 64
  | connection => 64
  | key => 64
  | protocol => 64
  | version => 32
  | origin => 256

/-- The getter of a header: `rq_get_host` and so on. -/
def get (field : Field) (request : Request) : List UInt8 :=
  cstr (field.str request).buffer

/-- What processing a header with the name of the field does to the string. -/
def store (platform : Platform) (field : Field) (str : Str) (value : List UInt8) : Str :=
  let trimmed := strTrimBeginning platform str value
  match field with
  | protocol =>
      { trimmed with buffer := overwrite trimmed.buffer 0 (spoil isComma (cstr trimmed.buffer)) }
  | origin => strTolower trimmed
  | _ => trimmed

/-- The part of a value which the string of a field can hold; an origin is stored in lower case. -/
def cut (field : Field) (value : List UInt8) : List UInt8 :=
  (if field = origin then value.map tolower else value).take (field.capacity - 1)

/-- The value which the getter of a field is to return after some headers. -/
def value (field : Field) (headers : List Header) : List UInt8 :=
  field.cut (lastOf (valuesOf field.name headers))

/-- What the buffer of a field holds for a value in front of the NUL. -/
def written (field : Field) (value : List UInt8) : List UInt8 :=
  if field = protocol then spoil isComma value else value

theorem name_injective {field other : Field} {key : List UInt8}
    (named : equalNocase key field.name = true) (also : equalNocase key other.name = true) :
    field = other := by
  rw [equalNocase_left named] at also
  revert also
  cases field <;> cases other <;> decide

end Field

section

variable (platform : Platform) (request : Request) {key : List UInt8} (value : List UInt8)

/-- Processing a header stores into the string of its name. -/
theorem str_rqProcess_of_named {field : Field} (named : equalNocase key field.name = true) :
    field.str (rqProcess platform request key value) =
      field.store platform (field.str request) value := by
  have decided : ∀ other : Field, equalNocase key other.name = decide (field = other) := by
    intro other
    rw [Bool.eq_iff_iff, decide_eq_true_iff]
    exact ⟨Field.name_injective named, fun same => same ▸ named⟩
  rw [rqProcess, show equalNocase key (text "host") = _ from decided .host,
    show equalNocase key (text "upgrade") = _ from decided .upgrade,
    show equalNocase key (text "connection") = _ from decided .connection,
    show equalNocase key (text "Sec-WebSocket-Key") = _ from decided .key,
    show equalNocase key (text "Sec-WebSocket-Protocol") = _ from decided .protocol,
    show equalNocase key (text "Sec-WebSocket-Version") = _ from decided .version,
    show equalNocase key (text "Origin") = _ from decided .origin]
  cases field <;> rfl

/-- Processing a header leaves the strings of the other names alone. -/
theorem str_rqProcess_of_not_named {field : Field} (other : equalNocase key field.name = false) :
    field.str (rqProcess platform request key value) = field.str request := by
  unfold rqProcess
  split_ifs with host upgrade connection wsKey protocol version origin
  · cases field <;> first | rfl | exact absurd (other.symm.trans host) Bool.false_ne_true
  · cases field <;> first | rfl | exact absurd (other.symm.trans upgrade) Bool.false_ne_true
  · cases field <;> first | rfl | exact absurd (other.symm.trans connection) Bool.false_ne_true
  · cases field <;> first | rfl | exact absurd (other.symm.trans wsKey) Bool.false_ne_true
  · cases field <;> first | rfl | exact absurd (other.symm.trans protocol) Bool.false_ne_true
  · cases field <;> first | rfl | exact absurd (other.symm.trans version) Bool.false_ne_true
  · cases field <;> first | rfl | exact absurd (other.symm.trans origin) Bool.false_ne_true
  · rfl

theorem requestLine_rqProcess (key : List UInt8) :
    (rqProcess platform request key value).methodStr = request.methodStr ∧
      (rqProcess platform request key value).resourceStr = request.resourceStr ∧
      (rqProcess platform request key value).protocolStr = request.protocolStr := by
  unfold rqProcess
  split_ifs <;> exact ⟨rfl, rfl, rfl⟩

end

/-! ## Representation -/

/-- The invariant of `str_t`: the length is the length of the C string in the buffer. -/
structure Str.WellFormed (str : Str) : Prop where
  length_lt : str.length < str.capacity
  terminated : str.buffer[str.length]? = some 0
  length_eq : str.length = (cstr str.buffer).length

theorem Str.Holds.wellFormed {str : Str} {capacity : Nat} {value : List UInt8}
    (holds : str.Holds capacity value) (positive : 0 < capacity) : str.WellFormed := by
  obtain ⟨capacity_eq, length_eq⟩ := holds.sized
  have short : (cstr str.buffer).length < capacity := by
    rw [holds.string_eq, List.length_take]
    omega
  obtain ⟨later, split_buffer⟩ := exists_terminated str.buffer (by rw [length_eq]; exact short)
  refine ⟨?_, ?_, holds.length_eq⟩
  · rw [holds.length_eq, capacity_eq]
    exact short
  · rw [holds.length_eq]
    conv_lhs => rw [split_buffer, cstr_of_terminated (zero_notMem_cstr _)]
    simp

/-- There is no comma behind a piece of the value, so that `strtok_r` leaves it as it is. -/
def Spared (value : List UInt8) : Prop :=
  44 ∉ value.dropWhile isComma

instance (value : List UInt8) : Decidable (Spared value) :=
  inferInstanceAs (Decidable (_ ∉ _))

theorem spoil_of_spared {value : List UInt8} (spared : Spared value) :
    spoil isComma value = value := by
  cases call : strtokR isComma value with
  | none => simp [spoil, strtokLoop_of_none call]
  | some found =>
      obtain ⟨-, -, ⟨rest_eq, left_eq⟩ | ⟨delimiter, rest, -, isDelim, left_eq⟩⟩ :=
        strtokR_eq_some call
      · have exhausted : strtokR isComma [] = none := rfl
        have skipped := skipped_of_strtokR call
        rw [spoil, strtokLoop_of_some call]
        simp [rest_eq, strtokLoop_of_none exhausted, skipped, ← left_eq,
          List.takeWhile_append_dropWhile]
      · have comma : delimiter = 44 := by simpa [isComma] using isDelim
        exact absurd (by simp [left_eq, comma]) spared

theorem zero_mem_spoil {value : List UInt8} (unspared : ¬ Spared value) :
    0 ∈ spoil isComma value := by
  cases call : strtokR isComma value with
  | none =>
      rw [Spared, strtokR_eq_none_iff.mp call] at unspared
      simp at unspared
  | some found =>
      obtain ⟨-, ink, ⟨rest_eq, left_eq⟩ | ⟨delimiter, rest, rest_eq, -, -⟩⟩ :=
        strtokR_eq_some call
      · rw [Spared, left_eq, not_not] at unspared
        exact absurd (ink 44 unspared) (by decide)
      · rw [spoil, strtokLoop_of_some call]
        simp [rest_eq]

/-- The string of a field after some headers. -/
structure Field.Retains (field : Field) (value : List UInt8) (str : Str) : Prop where
  sized : str.Sized field.capacity
  plain : 0 ∉ value
  short : value.length < field.capacity
  length_eq : str.length = value.length
  content : ∃ later, str.buffer = field.written value ++ 0 :: later

theorem Str.Holds.content {str : Str} {capacity : Nat} {value : List UInt8}
    (holds : str.Holds capacity value) (positive : 0 < capacity) :
    ∃ later, str.buffer = value.take (capacity - 1) ++ 0 :: later := by
  rw [← holds.string_eq]
  refine exists_terminated str.buffer ?_
  rw [holds.string_eq, holds.sized.2, List.length_take]
  omega

theorem Field.capacity_pos (field : Field) : 0 < field.capacity := by
  cases field <;> decide

theorem Field.zero_notMem_cut (field : Field) {value : List UInt8} (plain : 0 ∉ value) :
    0 ∉ field.cut value := by
  refine zero_notMem_take ?_ _
  split
  · simpa [tolower_eq_zero_iff] using plain
  · exact plain

theorem Field.length_cut_lt (field : Field) (value : List UInt8) :
    (field.cut value).length < field.capacity := by
  have positive := field.capacity_pos
  rw [cut, List.length_take]
  omega

/-- Storing a value into the string of its field. -/
theorem Field.retains_store (platform : Platform) (field : Field) {str : Str}
    (sized : str.Sized field.capacity) {value : List UInt8} (plain : 0 ∉ value)
    (literal : 37 ∉ value) :
    field.Retains (field.cut (trimLeft value)) (field.store platform str value) := by
  have trimmed_plain : 0 ∉ trimLeft value :=
    fun member => plain ((List.dropWhile_sublist isspace).subset member)
  have cut_plain := field.zero_notMem_cut trimmed_plain
  have cut_short := field.length_cut_lt (trimLeft value)
  have holds := sized.strTrimBeginning platform field.capacity_pos plain literal
  have whole : field ≠ .protocol → field ≠ .origin →
      field.Retains (field.cut (trimLeft value)) (strTrimBeginning platform str value) := by
    intro one other
    refine ⟨holds.sized, cut_plain, cut_short, ?_, ?_⟩
    · rw [holds.length_eq, holds.string_eq, cut, if_neg other]
    · rw [written, if_neg one, cut, if_neg other]
      exact holds.content field.capacity_pos
  cases field with
  | protocol =>
      obtain ⟨later, content⟩ := holds.content (by decide)
      have stored : (store platform .protocol str value).buffer =
          spoil isComma ((trimLeft value).take 63) ++ 0 :: later := by
        have string_eq : cstr (strTrimBeginning platform str value).buffer =
            (trimLeft value).take 63 := holds.string_eq
        rw [store, string_eq, overwrite_zero, length_spoil, content]
        exact congrArg _ (List.drop_left' rfl)
      refine ⟨⟨holds.sized.1, ?_⟩, cut_plain, cut_short, ?_, later, stored⟩
      · rw [← holds.sized.2, content, stored, List.length_append, List.length_append,
          length_spoil]
        rfl
      · rw [store, holds.length_eq, holds.string_eq]
        rfl
  | origin =>
      have lowered := holds.strTolower (by decide) trimmed_plain
      refine ⟨lowered.sized, cut_plain, cut_short, ?_, lowered.content (by decide)⟩
      rw [store, lowered.length_eq, lowered.string_eq]
      rfl
  | host => exact whole (by decide) (by decide)
  | upgrade => exact whole (by decide) (by decide)
  | connection => exact whole (by decide) (by decide)
  | key => exact whole (by decide) (by decide)
  | version => exact whole (by decide) (by decide)

theorem Field.Retains.string_eq {field : Field} {value : List UInt8} {str : Str}
    (retains : field.Retains value str) : cstr str.buffer = cstr (field.written value) := by
  obtain ⟨later, content⟩ := retains.content
  rw [content, cstr_append_zero]

theorem Field.value_concat (field : Field) (headers : List Header) (header : Header) :
    field.value (headers ++ [header]) =
      if equalNocase header.key field.name then field.cut (trimLeft header.value)
      else field.value headers := by
  rw [Field.value, valuesOf_concat]
  split
  · rw [lastOf_concat]
  · rfl

theorem Field.retains_recordHeader {platform : Platform} {field : Field} {request : Request}
    {headers : List Header} {header : Header}
    (retains : field.Retains (field.value headers) (field.str request))
    (plain : 0 ∉ header.value) (literal : 37 ∉ header.value) :
    field.Retains (field.value (headers ++ [header]))
      (field.str (recordHeader platform request header)) := by
  rw [field.value_concat, recordHeader]
  cases named : equalNocase header.key field.name with
  | true =>
      rw [if_pos rfl, str_rqProcess_of_named platform request header.value named]
      exact field.retains_store platform retains.sized plain literal
  | false =>
      rw [if_neg (by decide), str_rqProcess_of_not_named platform request header.value named]
      exact retains

/-! ## The list of protocols -/

/-- The elements of the list are strings, and their number is counted. -/
structure CountsProtocols (request : Request) : Prop where
  elements : ∀ element ∈ request.protocols, element.WellFormed
  count_eq : request.protocolCount = request.protocols.length

theorem protocolElement_wellFormed (platform : Platform) (token : List UInt8) :
    (protocolElement platform token).WellFormed :=
  ((strLocal_sized (by decide)).strPrint (show 0 < 16 by decide) _).wellFormed (by decide)

theorem CountsProtocols.getProtocols {request : Request} (platform : Platform)
    (listed : CountsProtocols request) : CountsProtocols (getProtocols platform request) := by
  refine ⟨fun element member => ?_, ?_⟩
  · obtain added | earlier := List.mem_append.mp member
    · obtain ⟨token, -, rfl⟩ := List.mem_map.mp (List.mem_reverse.mp added)
      exact protocolElement_wellFormed platform token
    · exact listed.elements element earlier
  · simp [Jabsocket.getProtocols, listed.count_eq, Nat.add_comm]

theorem CountsProtocols.rqProcess {request : Request} (platform : Platform)
    (listed : CountsProtocols request) (key value : List UInt8) :
    CountsProtocols (rqProcess platform request key value) := by
  have kept : ∀ other : Request, other.protocols = request.protocols →
      other.protocolCount = request.protocolCount → CountsProtocols other := by
    intro other protocols_eq count_eq
    exact ⟨protocols_eq ▸ listed.elements, by rw [count_eq, protocols_eq, listed.count_eq]⟩
  unfold Jabsocket.rqProcess
  split_ifs
  all_goals
    first
    | exact kept _ rfl rfl
    | refine CountsProtocols.getProtocols platform ?_
      exact kept _ rfl rfl

/-! ## Fields after some lines -/

/-- The fields of the request are those of what has been read. -/
structure Stored (platform : Platform) (reading : Reading) (request : Request) : Prop where
  records : Records platform (RequestText.printed platform reading.method)
    (RequestText.printed platform reading.resource) (fieldValues reading.headers) request
  protocol_holds : request.protocolStr.Holds 16 (RequestText.printed platform reading.protocol)
  retains : ∀ field : Field, field.Retains (field.value reading.headers) (field.str request)
  listed : CountsProtocols request

section

variable {platform : Platform} {last : UInt8} {reading : Reading} {request : Request}

theorem Stored.recordHeader (stored : Stored platform reading request) {header : Header}
    (plain : 0 ∉ header.value) (literal : 37 ∉ header.value) :
    Stored platform { reading with headers := reading.headers ++ [header] }
      (recordHeader platform request header) := by
  refine ⟨stored.records.recordHeader plain literal, ?_,
    fun field => Field.retains_recordHeader (stored.retains field) plain literal,
    stored.listed.rqProcess platform _ _⟩
  rw [Jabsocket.recordHeader, (requestLine_rqProcess platform request header.value header.key).2.2]
  exact stored.protocol_holds

theorem Stored.recordHeaders {headers : List Header} (stored : Stored platform reading request)
    (plain : ∀ header ∈ headers, 0 ∉ header.value)
    (literal : ∀ header ∈ headers, 37 ∉ header.value) :
    Stored platform { reading with headers := reading.headers ++ headers }
      (recordHeaders platform headers request) := by
  induction headers generalizing reading request with
  | nil => simpa [Jabsocket.recordHeaders] using stored
  | cons header headers ih =>
      have step := stored.recordHeader (plain header (by simp)) (literal header (by simp))
      have later := ih step (fun other member => plain other (by simp [member]))
        (fun other member => literal other (by simp [member]))
      rwa [List.append_assoc, List.singleton_append] at later

/-- The parser and the description, field by field. -/
structure Follows (platform : Platform) (last : UInt8) (reading : Reading) (request : Request) :
    Prop extends Tracks last reading request, Stored platform reading request where
  current_literal : 37 ∉ reading.current

theorem mem_completes {reading : Reading} {line : List UInt8} {header : Header} {byte : UInt8}
    (found : header ∈ reading.completes line) (member : byte ∈ header.value) :
    byte ∈ reading.current := by
  rw [Reading.completes] at found
  split at found
  · obtain ⟨logical, inside, rfl⟩ := List.mem_map.mp found
    obtain rfl : logical = reading.current := by
      simpa using (List.mem_filter.mp inside).1
    exact RequestText.mem_of_mem_splitHeader member
  · simp at found

theorem mem_current_addHeaderLine {reading : Reading} {line : List UInt8} {byte : UInt8}
    (member : byte ∈ (reading.addHeaderLine line).current) :
    byte ∈ reading.current ∨ byte ∈ line := by
  cases line with
  | nil =>
      simp only [Reading.addHeaderLine] at member
      split at member <;> exact Or.inl member
  | cons first rest =>
      simp only [Reading.addHeaderLine] at member
      split_ifs at member
      · obtain before | inside := List.mem_append.mp (List.mem_of_mem_take member)
        · exact Or.inl before
        · exact Or.inr (by simp [inside])
      · exact Or.inr (List.mem_of_mem_take member)
      · exact Or.inl member

/-- Only the line buffer and the flags may differ. -/
theorem Stored.with_flags (stored : Stored platform reading request) (line : List UInt8)
    (done error : Bool) : Stored platform reading { request with line, done, error } :=
  ⟨{ stored.records with }, stored.protocol_holds,
    fun field => by cases field <;> exact stored.retains _,
    stored.listed.elements, stored.listed.count_eq⟩

theorem Stored.addHeaderLine {line : List UInt8}
    (stored : Stored platform { reading with headers := reading.headers ++ reading.completes line }
      request) : Stored platform (reading.addHeaderLine line) request := by
  have same : (reading.addHeaderLine line).method = reading.method ∧
      (reading.addHeaderLine line).resource = reading.resource ∧
      (reading.addHeaderLine line).protocol = reading.protocol := by
    cases line with
    | nil =>
        simp only [Reading.addHeaderLine]
        split <;> exact ⟨rfl, rfl, rfl⟩
    | cons first rest =>
        simp only [Reading.addHeaderLine]
        split_ifs <;> exact ⟨rfl, rfl, rfl⟩
  obtain ⟨records, protocol_holds, retains, listed⟩ := stored
  refine ⟨?_, ?_, ?_, listed⟩
  · rw [same.1, same.2.1, headers_addHeaderLine]
    exact records
  · rw [same.2.2]
    exact protocol_holds
  · rw [headers_addHeaderLine]
    exact retains

/-- A request line stores its tokens. -/
theorem Stored.addRequestLine (stored : Stored platform reading request) (line : List UInt8) :
    Stored platform (reading.addRequestLine line) (addRequestLine platform request line) := by
  have method_holds : ∀ method, (strSetString platform request.methodStr method).Holds 16
      (RequestText.printed platform method) :=
    fun method => stored.records.method_holds.sized.strPrint (by decide) _
  have resource_holds : ∀ resource, (strSetString platform request.resourceStr resource).Holds 256
      (RequestText.printed platform resource) :=
    fun resource => stored.records.resource_holds.sized.strPrint (by decide) _
  have protocol_holds : ∀ resource, (strSetString platform request.protocolStr resource).Holds 16
      (RequestText.printed platform resource) :=
    fun resource => stored.protocol_holds.sized.strPrint (by decide) _
  have retains : ∀ method resource protocol : Str, ∀ line error state (field : Field),
      field.Retains (field.value reading.headers)
        (field.str
          { request with
            methodStr := method, resourceStr := resource, protocolStr := protocol, line, error,
            state }) := by
    intro method resource protocol line error state field
    cases field <;> exact stored.retains _
  have listed : ∀ method resource protocol : Str, ∀ line error state,
      CountsProtocols
        { request with
          methodStr := method, resourceStr := resource, protocolStr := protocol, line, error,
          state } :=
    fun _ _ _ _ _ _ => ⟨stored.listed.elements, stored.listed.count_eq⟩
  rcases found : tokens isBlank line with _ | ⟨method, _ | ⟨resource, _ | ⟨protocol, others⟩⟩⟩ <;>
    simp only [Jabsocket.addRequestLine, parseRequestLine, Reading.addRequestLine, found]
  · exact ⟨{ stored.records with }, stored.protocol_holds, retains _ _ _ _ _ _,
      listed _ _ _ _ _ _⟩
  · exact ⟨{ stored.records with method_holds := method_holds method }, stored.protocol_holds,
      retains _ _ _ _ _ _, listed _ _ _ _ _ _⟩
  · exact ⟨{ stored.records with
        method_holds := method_holds method, resource_holds := resource_holds resource },
      stored.protocol_holds, retains _ _ _ _ _ _, listed _ _ _ _ _ _⟩
  · exact ⟨{ stored.records with
        method_holds := method_holds method, resource_holds := resource_holds resource },
      protocol_holds resource, retains _ _ _ _ _ _, listed _ _ _ _ _ _⟩

theorem Follows.addLine (follows : Follows platform last reading request)
    (room : reading.HasRoom last) {line : List UInt8} (plain : 0 ∉ line) (literal : 37 ∉ line) :
    Follows platform last (reading.addLine line) (rqAddLine platform request line) := by
  have tracks := follows.toTracks.addLine platform room plain
  cases started : reading.started with
  | true =>
      have state_eq : request.state = .header := by
        rw [follows.state_eq, started, if_pos rfl]
      obtain ⟨memory, outcome, -⟩ := follows.addHeaderLine_eq platform started room plain
      have current_plain := (follows.collects started).plain
      have values_plain : ∀ header ∈ reading.completes line, 0 ∉ header.value :=
        fun header found zero => current_plain (mem_completes found zero)
      have values_literal : ∀ header ∈ reading.completes line, 37 ∉ header.value :=
        fun header found percent => follows.current_literal (mem_completes found percent)
      have recorded := (follows.toStored.recordHeaders values_plain values_literal).addHeaderLine
      rw [Reading.addLine, started, if_pos rfl] at tracks ⊢
      refine ⟨tracks, ?_, fun percent => ?_⟩
      · rw [rqAddLine, state_eq, outcome]
        exact recorded.with_flags _ _ _
      · obtain before | inside := mem_current_addHeaderLine percent
        · exact follows.current_literal before
        · exact literal inside
  | false =>
      have state_eq : request.state = .start := by
        rw [follows.state_eq, started, if_neg (by decide)]
      rw [Reading.addLine, started, if_neg (by decide)] at tracks ⊢
      refine ⟨tracks, ?_, ?_⟩
      · rw [rqAddLine, state_eq]
        exact follows.toStored.addRequestLine line
      · rw [Reading.addRequestLine]
        split <;> first | exact follows.current_literal | exact List.not_mem_nil

theorem Follows.foldl {lines : List (List UInt8)} (follows : Follows platform last reading request)
    (contained : reading.Contained last lines) (plain : ∀ line ∈ lines, 0 ∉ line)
    (literal : ∀ line ∈ lines, 37 ∉ line) :
    Follows platform last (lines.foldl Reading.addLine reading)
      (lines.foldl (rqAddLine platform) request) := by
  induction lines generalizing reading request with
  | nil => exact follows
  | cons line lines ih =>
      obtain ⟨room, later⟩ := contained_cons.mp contained
      exact ih (follows.addLine room (plain line (by simp)) (literal line (by simp))) later
        (fun other member => plain other (by simp [member]))
        (fun other member => literal other (by simp [member]))

end

/-- A string which holds nothing. -/
theorem Field.retains_empty {field : Field} {str : Str} (holds : str.Holds field.capacity []) :
    field.Retains (field.value []) str := by
  have empty : field.value [] = [] := by
    cases field <;> rfl
  have written : field.written [] = [] := by
    cases field <;> rfl
  obtain ⟨later, content⟩ := holds.content field.capacity_pos
  refine ⟨holds.sized, by simp [empty], by simp [empty, field.capacity_pos], ?_, later, ?_⟩
  · rw [empty, holds.length_eq, holds.string_eq, List.take_nil]
  · rw [empty, written, content, List.take_nil]

/-- A new request follows the description of nothing read. -/
theorem follows_rqCreate (platform : Platform) (memory : Nat → UInt8) :
    Follows platform (memory 4095) Reading.fresh (rqCreate memory) := by
  have fresh : ∀ offset size, 0 < size →
      (strInit (allocated memory offset size) size).Holds size [] :=
    fun offset size positive => Str.Sized.strInit positive (by simp [allocated])
  refine ⟨tracks_rqCreate memory, ⟨RequestText.rqCreate_records platform memory, ?_, ?_, ?_⟩, ?_⟩
  · exact fresh _ _ (by decide)
  · intro field
    refine Field.retains_empty ?_
    cases field <;> exact fresh _ _ (by decide)
  · exact ⟨by simp [rqCreate], rfl⟩
  · exact List.not_mem_nil

/-! ## The strings of a request -/

/-- All the strings of a request. -/
def Request.strs (request : Request) : List Str :=
  [request.methodStr, request.resourceStr, request.protocolStr, request.hostStr,
    request.upgradeStr, request.connectionStr, request.wsKeyStr, request.wsProtocolStr,
    request.wsVersionStr, request.originStr] ++ request.protocols

/-- After some lines every string is well formed, every getter returns the last value of its
header, and storing another header does not change that. -/
structure KeepsStrings (platform : Platform) (memory : Nat → UInt8) (lines : List (List UInt8)) :
    Prop where
  inside : (lines.foldl (rqAddLine platform) (rqCreate memory)).overrun = false
  wellFormed : ∀ str ∈ (lines.foldl (rqAddLine platform) (rqCreate memory)).strs, str.WellFormed
  returns : ∀ field : Field, field.get (lines.foldl (rqAddLine platform) (rqCreate memory)) =
    field.value (readLines lines).headers
  framed : ∀ (field : Field) (key value : List UInt8), equalNocase key field.name = false →
    field.get (rqProcess platform (lines.foldl (rqAddLine platform) (rqCreate memory)) key value) =
      field.get (lines.foldl (rqAddLine platform) (rqCreate memory))

theorem Field.written_eq_self {field : Field} {value : List UInt8}
    (spared : field = .protocol → Spared value) : field.written value = value := by
  rw [written]
  split
  · rename_i protocol
    exact spoil_of_spared (spared protocol)
  · rfl

theorem Field.Retains.string_eq_self {field : Field} {value : List UInt8} {str : Str}
    (retains : field.Retains value str) (spared : field = .protocol → Spared value) :
    cstr str.buffer = value := by
  rw [retains.string_eq, written_eq_self spared, cstr_eq_self retains.plain]

theorem Field.Retains.wellFormed {field : Field} {value : List UInt8} {str : Str}
    (retains : field.Retains value str) (spared : field = .protocol → Spared value) :
    str.WellFormed := by
  obtain ⟨later, content⟩ := retains.content
  refine ⟨?_, ?_, ?_⟩
  · rw [retains.length_eq, retains.sized.1]
    exact retains.short
  · rw [content, retains.length_eq, written_eq_self spared]
    simp
  · rw [retains.string_eq_self spared, retains.length_eq]

/-- A NUL behind a piece makes the C string shorter than the length. -/
theorem Field.Retains.spared_of_wellFormed {value : List UInt8} {str : Str}
    (retains : Field.protocol.Retains value str) (wellFormed : str.WellFormed) : Spared value := by
  by_contra unspared
  have lengths : (cstr (spoil isComma value)).length = (spoil isComma value).length := by
    rw [length_spoil, ← retains.length_eq, wellFormed.length_eq, retains.string_eq]
    rfl
  have whole := (List.takeWhile_prefix (fun byte : UInt8 => byte != 0)).eq_of_length lengths
  exact zero_notMem_cstr _ (whole.symm ▸ zero_mem_spoil unspared)

theorem Stored.wellFormed {platform : Platform} {reading : Reading} {request : Request}
    (stored : Stored platform reading request)
    (spared : ∀ field : Field, field = .protocol → Spared (field.value reading.headers)) :
    ∀ str ∈ request.strs, str.WellFormed := by
  intro str member
  obtain own | element := List.mem_append.mp member
  · have fields : ∀ field : Field, (field.str request).WellFormed :=
      fun field => (stored.retains field).wellFormed (spared field)
    simp only [List.mem_cons, List.not_mem_nil, or_false] at own
    obtain rfl | rfl | rfl | rfl | rfl | rfl | rfl | rfl | rfl | rfl := own
    · exact stored.records.method_holds.wellFormed (by decide)
    · exact stored.records.resource_holds.wellFormed (by decide)
    · exact stored.protocol_holds.wellFormed (by decide)
    · exact fields .host
    · exact fields .upgrade
    · exact fields .connection
    · exact fields .key
    · exact fields .protocol
    · exact fields .version
    · exact fields .origin
  · exact stored.listed.elements str element

/-- The strings of a request are kept exactly when the parser stays inside its line buffer and
the last Sec-WebSocket-Protocol value has no comma behind a piece. -/
theorem keepsStrings_iff (platform : Platform) (memory : Nat → UInt8) {lines : List (List UInt8)}
    (plain : ∀ line ∈ lines, 0 ∉ line) (literal : ∀ line ∈ lines, 37 ∉ line) :
    KeepsStrings platform memory lines ↔
      (memory 4095 = 0 ∨
        ∀ count < lines.length, (readLines (lines.take count)).current.length < 4095) ∧
        Spared (Field.protocol.value (readLines lines).headers) := by
  have overrun_iff := (tracks_rqCreate memory).overrun_iff platform plain
  rw [← contained_fresh_iff]
  have followed : Reading.fresh.Contained (memory 4095) lines →
      Follows platform (memory 4095) (readLines lines)
        (lines.foldl (rqAddLine platform) (rqCreate memory)) :=
    fun contained => (follows_rqCreate platform memory).foldl contained plain literal
  constructor
  · intro keeps
    have contained := overrun_iff.mp keeps.inside
    exact ⟨contained, ((followed contained).retains .protocol).spared_of_wellFormed
      (keeps.wellFormed _ (by simp [Request.strs, Field.str]))⟩
  · rintro ⟨contained, spared⟩
    have follows := followed contained
    have protocol_spared : ∀ field : Field, field = .protocol →
        Spared (field.value (readLines lines).headers) := by
      rintro field rfl
      exact spared
    refine ⟨follows.inside, ?_, fun field => ?_, fun field key value other => ?_⟩
    · exact follows.toStored.wellFormed protocol_spared
    · exact (follows.retains field).string_eq_self (protocol_spared field)
    · rw [Field.get, str_rqProcess_of_not_named platform _ value other]
      rfl

/-- A request with two protocols. -/
def twoProtocols : List (List UInt8) :=
  [text "GET / HTTP/1.1", text "Sec-WebSocket-Protocol: chat, xmpp", []]

/-- A request with one protocol keeps its strings. -/
theorem keepsStrings_xmpp :
    (∀ line ∈ [text "GET / HTTP/1.1", text "Sec-WebSocket-Protocol: xmpp", []],
      0 ∉ line ∧ 37 ∉ line) ∧
      KeepsStrings RequestText.greetingPlatform (fun _ => 255)
        [text "GET / HTTP/1.1", text "Sec-WebSocket-Protocol: xmpp", []] := by
  have clean : ∀ line ∈ [text "GET / HTTP/1.1", text "Sec-WebSocket-Protocol: xmpp", []],
      0 ∉ line ∧ 37 ∉ line := by
    decide +kernel
  refine ⟨clean, (keepsStrings_iff _ _ (fun line member => (clean line member).1)
    fun line member => (clean line member).2).mpr ⟨Or.inr ?_, ?_⟩⟩
  · decide +kernel
  · decide +kernel

/-- Two protocols in one header: the getter returns the first of them only. -/
theorem not_keepsStrings_twoProtocols :
    ¬ KeepsStrings RequestText.greetingPlatform (fun _ => 0) twoProtocols := by
  intro keeps
  exact absurd (keeps.returns .protocol) (by decide +kernel)

end Jabsocket
