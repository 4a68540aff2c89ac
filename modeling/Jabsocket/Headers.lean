import Jabsocket.Request

/-!
# Headers of a request

The lines of a request are folded into logical headers, and the parser processes every logical
header once.  The fields of the request are then functions of the list of headers: each holds the
last value of its name, cut to its buffer, and the lists and flags collect over all values.
-/

namespace Jabsocket

/-- A header: the text before the first colon and the text after it. -/
structure Header where
  key : List UInt8
  value : List UInt8
  deriving DecidableEq, Repr

/-- Split a logical header at its first colon. -/
def splitHeader (logical : List UInt8) : Header :=
  { key := logical.takeWhile (· ≠ 58), value := (logical.dropWhile (· ≠ 58)).tail }

/-- Logical headers when `current` is already collected: a line which begins with whitespace
continues the current one, without its first byte. -/
def logicalFrom (current : List UInt8) : List (List UInt8) → List (List UInt8)
  | [] => [current]
  | line :: lines =>
      if isspace (line.headD 0) then logicalFrom (current ++ line.tail) lines
      else current :: logicalFrom line lines

/-- The logical headers of a request which has nothing collected yet. -/
def logicalLines (lines : List (List UInt8)) : List (List UInt8) :=
  (logicalFrom [] lines).filter (· ≠ [])

/-- The headers of a request. -/
def headersOf (lines : List (List UInt8)) : List Header :=
  (logicalLines lines).map splitHeader

/-- The values of the headers with a name, without their leading whitespace. -/
def valuesOf (name : List UInt8) (headers : List Header) : List (List UInt8) :=
  (headers.filter fun header => equalNocase header.key name).map fun header =>
    trimLeft header.value

/-! ## Folding -/

/-- The line buffer holds the part of a header collected so far. -/
structure Buffered (request : Request) (current : List UInt8) : Prop where
  length_eq : request.line.length = lineBufferSize
  string_eq : cstr request.line = current
  terminated : current.length < lineBufferSize

theorem Buffered.scanLine_eq {request : Request} {current : List UInt8}
    (buffered : Buffered request current) : scanLine request = request := by
  obtain ⟨later, split_line⟩ := exists_terminated request.line (by
    rw [buffered.string_eq, buffered.length_eq]
    exact buffered.terminated)
  have terminated : 0 ∈ request.line := by
    rw [split_line]
    simp
  simp [scanLine, terminated]

/-- Storing a string behind the collected part. -/
theorem cstr_strncpy {memory current string : List UInt8} (length_eq : memory.length = 4096)
    (string_eq : cstr memory = current) (plain : 0 ∉ string)
    (fits : current.length + string.length < 4095) :
    (strncpy memory current.length string (4095 - current.length)).length = 4096 ∧
      cstr (strncpy memory current.length string (4095 - current.length)) =
        current ++ string := by
  obtain ⟨later, split_memory⟩ := exists_terminated memory (by
    rw [string_eq, length_eq]
    omega)
  rw [string_eq] at split_memory
  have taken : memory.take current.length = current := by
    rw [split_memory, List.take_left]
  have copied : string.take (4095 - current.length) = string :=
    List.take_of_length_le (by omega)
  have padding : List.replicate (4095 - current.length - string.length) (0 : UInt8) =
      0 :: List.replicate (4095 - current.length - string.length - 1) 0 := by
    rw [← List.replicate_succ]
    congr 1
    omega
  have clean : 0 ∉ current ++ string := by
    have none_before := zero_notMem_cstr memory
    rw [string_eq] at none_before
    simp [none_before, plain]
  constructor
  · rw [strncpy, length_overwrite, length_eq]
    simp only [List.length_append, List.length_take, List.length_replicate]
    omega
  · rw [strncpy, overwrite, taken, copied, padding, ← List.append_assoc, List.append_assoc,
      List.cons_append]
    exact cstr_of_terminated clean _

section

variable (platform : Platform)

/-- Process a logical header. -/
def recordHeader (request : Request) (header : Header) : Request :=
  rqProcess platform request header.key header.value

/-- Process headers in order. -/
def recordHeaders (headers : List Header) (request : Request) : Request :=
  headers.foldl (recordHeader platform) request

theorem recordHeaders_append (first second : List Header) (request : Request) :
    recordHeaders platform (first ++ second) request =
      recordHeaders platform second (recordHeaders platform first request) := by
  simp [recordHeaders]

/-- Processing headers does not depend on the line buffer and does not change it. -/
theorem recordHeaders_with_line (headers : List Header) (request : Request)
    (memory : List UInt8) (done : Bool) :
    recordHeaders platform headers { request with line := memory, done } =
      { recordHeaders platform headers request with line := memory, done } := by
  induction headers generalizing request with
  | nil => rfl
  | cons header headers ih =>
      have step : recordHeader platform { request with line := memory, done } header =
          { recordHeader platform request header with line := memory, done } := by
        unfold recordHeader rqProcess
        split_ifs <;> rfl
      simp only [recordHeaders, List.foldl_cons] at ih ⊢
      rw [step, ih]

theorem recordHeaders_state (headers : List Header) (request : Request) :
    (recordHeaders platform headers request).state = request.state ∧
      (recordHeaders platform headers request).error = request.error := by
  induction headers generalizing request with
  | nil => exact ⟨rfl, rfl⟩
  | cons header headers ih =>
      have step : (recordHeader platform request header).state = request.state ∧
          (recordHeader platform request header).error = request.error := by
        unfold recordHeader rqProcess
        split_ifs <;> exact ⟨rfl, rfl⟩
      have later := ih (recordHeader platform request header)
      exact ⟨later.1.trans step.1, later.2.trans step.2⟩

/-- The headers to process for some logical headers; empty ones are passed over. -/
def pendingHeaders (logicals : List (List UInt8)) : List Header :=
  (logicals.filter (· ≠ [])).map splitHeader

theorem pendingHeaders_append (first second : List (List UInt8)) :
    pendingHeaders (first ++ second) = pendingHeaders first ++ pendingHeaders second := by
  simp [pendingHeaders]

variable {platform}

/-- A logical header can be processed. -/
def Complete (logical : List UInt8) : Prop :=
  logical ≠ [] → 58 ∈ logical

instance (logical : List UInt8) : Decidable (Complete logical) :=
  inferInstanceAs (Decidable (logical ≠ [] → 58 ∈ logical))

theorem flushLine_of_cstr (platform : Platform) {request : Request} {current : List UInt8}
    (string_eq : cstr request.line = current) :
    flushLine platform request =
      if Complete current then some (recordHeaders platform (pendingHeaders [current]) request)
      else none := by
  rw [flushLine, string_eq]
  by_cases empty : current = []
  · simp [empty, Complete, recordHeaders, pendingHeaders]
  · by_cases colon : 58 ∈ current
    · simp [List.length_pos_of_ne_nil empty, Complete, colon, empty, recordHeaders,
        pendingHeaders, recordHeader, splitHeader]
    · simp [List.length_pos_of_ne_nil empty, Complete, colon, empty]

theorem Buffered.flushLine_eq {request : Request} {current : List UInt8}
    (buffered : Buffered request current) (complete : Complete current) :
    flushLine platform request =
      some (recordHeaders platform (pendingHeaders [current]) request) := by
  rw [flushLine_of_cstr platform buffered.string_eq, if_pos complete]

theorem Buffered.appendLine_continue {request : Request} {current rest : List UInt8}
    {first : UInt8} (buffered : Buffered request current) (space : isspace first = true)
    (plain : 0 ∉ rest) (fits : (current ++ rest).length < 4095) :
    ∃ memory, appendLine request (first :: rest) = { request with line := memory } ∧
      Buffered { request with line := memory } (current ++ rest) := by
  rw [List.length_append] at fits
  obtain ⟨length_eq, string_eq⟩ :=
    cstr_strncpy buffered.length_eq buffered.string_eq plain fits
  refine ⟨strncpy request.line current.length rest (4095 - current.length), ?_, length_eq,
    string_eq, ?_⟩
  · have room : ((4096 : Int) - current.length - 1).toNat = 4095 - current.length := by omega
    simp [appendLine, space, buffered.scanLine_eq, buffered.string_eq, lineBufferSize, room]
  · simp only [List.length_append, lineBufferSize]
    omega

theorem Buffered.appendLine_begin {request : Request} {current rest : List UInt8} {first : UInt8}
    (buffered : Buffered request current) (ink : isspace first = false)
    (plain : 0 ∉ first :: rest) (fits : (first :: rest).length < 4095) :
    ∃ memory, appendLine request (first :: rest) = { request with line := memory } ∧
      Buffered { request with line := memory } (first :: rest) := by
  have emptied : Buffered { request with line := overwrite request.line 0 [0] } [] := by
    refine ⟨?_, ?_, by decide⟩
    · rw [length_overwrite, buffered.length_eq]
      rw [buffered.length_eq]
      decide
    · simpa using cstr_overwrite_terminated request.line (List.not_mem_nil (a := (0 : UInt8)))
  obtain ⟨length_eq, string_eq⟩ :=
    cstr_strncpy emptied.length_eq emptied.string_eq plain (by simpa using fits)
  refine ⟨strncpy (overwrite request.line 0 [0]) 0 (first :: rest) 4095, ?_, length_eq,
    string_eq, ?_⟩
  · simp [appendLine, ink, emptied.scanLine_eq, emptied.string_eq, lineBufferSize]
  · simp only [lineBufferSize]
    omega

theorem Buffered.addHeaderLine_continue {request : Request} {current rest : List UInt8}
    {first : UInt8} (buffered : Buffered request current) (space : isspace first = true)
    (plain : 0 ∉ first :: rest) (fits : (current ++ rest).length < 4095) :
    ∃ memory, addHeaderLine platform request (first :: rest) = { request with line := memory } ∧
      Buffered { request with line := memory } (current ++ rest) := by
  obtain ⟨memory, appended, later⟩ := buffered.appendLine_continue space
    (fun member => plain (by simp [member])) fits
  exact ⟨memory, by simp [addHeaderLine, space, appended], later⟩

theorem Buffered.addHeaderLine_begin {request : Request} {current rest : List UInt8}
    {first : UInt8} (buffered : Buffered request current) (ink : isspace first = false)
    (complete : Complete current) (plain : 0 ∉ first :: rest)
    (fits : (first :: rest).length < 4095) :
    ∃ memory, addHeaderLine platform request (first :: rest) =
        { recordHeaders platform (pendingHeaders [current]) request with line := memory } ∧
      Buffered
        { recordHeaders platform (pendingHeaders [current]) request with line := memory }
        (first :: rest) := by
  have kept := recordHeaders_with_line platform (pendingHeaders [current]) request
    request.line request.done
  have recorded : Buffered (recordHeaders platform (pendingHeaders [current]) request) current := by
    have line_eq := congrArg Request.line kept
    exact ⟨line_eq ▸ buffered.length_eq, line_eq ▸ buffered.string_eq, buffered.terminated⟩
  obtain ⟨memory, appended, later⟩ := recorded.appendLine_begin ink plain fits
  refine ⟨memory, ?_, later⟩
  simp [addHeaderLine, ink, buffered.scanLine_eq, buffered.flushLine_eq complete, appended]

theorem Buffered.addHeaderLine_end {request : Request} {current : List UInt8}
    (buffered : Buffered request current) (complete : Complete current) :
    addHeaderLine platform request [] =
      { recordHeaders platform (pendingHeaders [current]) request with
        line := request.line, done := true } := by
  have done_buffered : Buffered { request with done := true } current :=
    ⟨buffered.length_eq, buffered.string_eq, buffered.terminated⟩
  simp only [addHeaderLine, List.isEmpty_nil, if_true, Bool.true_or, done_buffered.scanLine_eq,
    done_buffered.flushLine_eq complete, appendLine]
  exact recordHeaders_with_line platform _ request request.line true

theorem length_le_of_mem_logicalFrom (current : List UInt8) (lines : List (List UInt8)) :
    ∃ logical ∈ logicalFrom current lines, current.length ≤ logical.length := by
  induction lines generalizing current with
  | nil => exact ⟨current, by simp [logicalFrom], Nat.le_refl _⟩
  | cons line lines ih =>
      rw [logicalFrom]
      split
      · obtain ⟨logical, member, longer⟩ := ih (current ++ line.tail)
        rw [List.length_append] at longer
        exact ⟨logical, member, by omega⟩
      · exact ⟨current, by simp, Nat.le_refl _⟩

variable (platform) in
/-- The header lines of a request and the empty line at their end: every logical header is
processed once, in order. -/
theorem Buffered.foldl_rqAddLine {request : Request} {current : List UInt8}
    {lines : List (List UInt8)} (buffered : Buffered request current)
    (state_eq : request.state = .header) (nonempty : ∀ line ∈ lines, line ≠ [])
    (plain : ∀ line ∈ lines, 0 ∉ line)
    (complete : ∀ logical ∈ logicalFrom current lines, Complete logical)
    (fits : ∀ logical ∈ logicalFrom current lines, logical.length < 4095) :
    ∃ memory, (lines ++ [[]]).foldl (rqAddLine platform) request =
      { recordHeaders platform (pendingHeaders (logicalFrom current lines)) request with
        line := memory, done := true } := by
  induction lines generalizing request current with
  | nil =>
      refine ⟨request.line, ?_⟩
      rw [List.nil_append, List.foldl_cons, List.foldl_nil, rqAddLine, state_eq]
      exact buffered.addHeaderLine_end (complete current (by simp [logicalFrom]))
  | cons line lines ih =>
      obtain ⟨first, rest, rfl⟩ := List.exists_cons_of_ne_nil (nonempty line (by simp))
      have line_plain := plain (first :: rest) (by simp)
      have nonempty_later : ∀ line ∈ lines, line ≠ [] :=
        fun other member => nonempty other (by simp [member])
      have plain_later : ∀ line ∈ lines, 0 ∉ line :=
        fun other member => plain other (by simp [member])
      have added : rqAddLine platform request (first :: rest) =
          addHeaderLine platform request (first :: rest) := by
        rw [rqAddLine, state_eq]
      rw [List.cons_append, List.foldl_cons, added]
      cases space : isspace first with
      | true =>
          simp only [logicalFrom, List.headD_cons, space, if_true, List.tail_cons]
            at complete fits ⊢
          obtain ⟨logical, member, longer⟩ :=
            length_le_of_mem_logicalFrom (current ++ rest) lines
          obtain ⟨memory, outcome, later⟩ := buffered.addHeaderLine_continue space line_plain
            (Nat.lt_of_le_of_lt longer (fits logical member))
          obtain ⟨final, run⟩ := ih later state_eq nonempty_later plain_later complete fits
          refine ⟨final, ?_⟩
          rw [outcome, run, recordHeaders_with_line platform _ request memory request.done]
      | false =>
          simp only [logicalFrom, List.headD_cons, space, Bool.false_eq_true, if_false,
            List.mem_cons, forall_eq_or_imp] at complete fits ⊢
          obtain ⟨logical, member, longer⟩ := length_le_of_mem_logicalFrom (first :: rest) lines
          obtain ⟨memory, outcome, later⟩ := buffered.addHeaderLine_begin space complete.1
            line_plain (Nat.lt_of_le_of_lt longer (fits.2 logical member))
          have recorded_state :=
            (recordHeaders_state platform (pendingHeaders [current]) request).1.trans state_eq
          obtain ⟨final, run⟩ :=
            ih later recorded_state nonempty_later plain_later complete.2 fits.2
          refine ⟨final, ?_⟩
          have recorded := recordHeaders_with_line platform
            (pendingHeaders (logicalFrom (first :: rest) lines))
            (recordHeaders platform (pendingHeaders [current]) request) memory
            (recordHeaders platform (pendingHeaders [current]) request).done
          rw [outcome, run, recorded, ← recordHeaders_append, ← pendingHeaders_append,
            List.singleton_append]

/-- An error is never taken back. -/
theorem rqAddLine_error {request : Request} (error : request.error = true) (line : List UInt8) :
    (rqAddLine platform request line).error = true := by
  have appended : ∀ other : Request, other.error = true → (appendLine other line).error = true := by
    intro other kept
    cases line with
    | nil => exact kept
    | cons first rest =>
        simp only [appendLine, scanLine]
        split <;> exact kept
  have flushed : ∀ other next : Request, other.error = true →
      flushLine platform other = some next → next.error = true := by
    intro other next kept outcome
    simp only [flushLine] at outcome
    split_ifs at outcome
    · rw [← Option.some.inj outcome]
      unfold rqProcess
      split_ifs <;> exact kept
    · rw [← Option.some.inj outcome]
      exact kept
  unfold rqAddLine
  split
  · unfold addRequestLine parseRequestLine
    split <;> rename_i parsed <;> split at parsed <;>
      first
      | rfl
      | (obtain ⟨rfl, -⟩ := Prod.mk.inj parsed; exact error)
  · have kept : (if line.isEmpty then { request with done := true } else request).error = true := by
      split <;> exact error
    simp only [addHeaderLine]
    generalize (if line.isEmpty then { request with done := true } else request) = other at *
    split
    · split
      · rename_i next outcome
        exact appended next (flushed (scanLine other) next kept outcome)
      · rfl
    · exact appended other kept
  · exact error

theorem foldl_rqAddLine_error {request : Request} (error : request.error = true)
    (lines : List (List UInt8)) : (lines.foldl (rqAddLine platform) request).error = true := by
  induction lines generalizing request with
  | nil => exact error
  | cons line lines ih => exact ih (rqAddLine_error error line)

theorem Buffered.flushLine_eq_none {request : Request} {current : List UInt8}
    (buffered : Buffered request current) (incomplete : ¬ Complete current) :
    flushLine platform request = none := by
  rw [flushLine_of_cstr platform buffered.string_eq, if_neg incomplete]

/-- A header without a colon is an error as soon as it is complete. -/
theorem Buffered.addHeaderLine_error {request : Request} {current line : List UInt8}
    (buffered : Buffered request current) (incomplete : ¬ Complete current)
    (ends : line.isEmpty = true ∨ isspace (line.headD 0) = false) :
    (addHeaderLine platform request line).error = true := by
  have kept : Buffered (if line.isEmpty then { request with done := true } else request)
      current := by
    split
    · exact ⟨buffered.length_eq, buffered.string_eq, buffered.terminated⟩
    · exact buffered
  have flush : (line.isEmpty || !isspace (line.headD 0)) = true := by
    obtain empty | ink := ends
    · rw [empty, Bool.true_or]
    · rw [ink, Bool.not_false, Bool.or_true]
  simp only [addHeaderLine, flush, if_true]
  generalize (if line.isEmpty then { request with done := true } else request) = other at kept ⊢
  rw [kept.scanLine_eq, kept.flushLine_eq_none incomplete]

/-- Without an error, every logical header had a colon. -/
theorem Buffered.complete_of_run {request : Request} {current : List UInt8}
    {lines : List (List UInt8)} (buffered : Buffered request current)
    (state_eq : request.state = .header) (nonempty : ∀ line ∈ lines, line ≠ [])
    (plain : ∀ line ∈ lines, 0 ∉ line)
    (fits : ∀ logical ∈ logicalFrom current lines, logical.length < 4095)
    (clean : ((lines ++ [[]]).foldl (rqAddLine platform) request).error = false) :
    ∀ logical ∈ logicalFrom current lines, Complete logical := by
  induction lines generalizing request current with
  | nil =>
      intro logical member
      obtain rfl : logical = current := by simpa [logicalFrom] using member
      by_contra incomplete
      have failed : (addHeaderLine platform request []).error = true :=
        buffered.addHeaderLine_error incomplete (Or.inl List.isEmpty_nil)
      rw [List.nil_append, List.foldl_cons, List.foldl_nil, rqAddLine, state_eq] at clean
      simp [failed] at clean
  | cons line lines ih =>
      obtain ⟨first, rest, rfl⟩ := List.exists_cons_of_ne_nil (nonempty line (by simp))
      have line_plain := plain (first :: rest) (by simp)
      have nonempty_later : ∀ line ∈ lines, line ≠ [] :=
        fun other member => nonempty other (by simp [member])
      have plain_later : ∀ line ∈ lines, 0 ∉ line :=
        fun other member => plain other (by simp [member])
      have added : rqAddLine platform request (first :: rest) =
          addHeaderLine platform request (first :: rest) := by
        rw [rqAddLine, state_eq]
      rw [List.cons_append, List.foldl_cons, added] at clean
      cases space : isspace first with
      | true =>
          simp only [logicalFrom, List.headD_cons, space, if_true, List.tail_cons] at fits ⊢
          obtain ⟨logical, member, longer⟩ :=
            length_le_of_mem_logicalFrom (current ++ rest) lines
          obtain ⟨memory, outcome, later⟩ := buffered.addHeaderLine_continue space line_plain
            (Nat.lt_of_le_of_lt longer (fits logical member))
          rw [outcome] at clean
          exact ih later state_eq nonempty_later plain_later fits clean
      | false =>
          simp only [logicalFrom, List.headD_cons, space, Bool.false_eq_true, if_false,
            List.mem_cons, forall_eq_or_imp] at fits ⊢
          by_cases complete : Complete current
          · obtain ⟨logical, member, longer⟩ :=
              length_le_of_mem_logicalFrom (first :: rest) lines
            obtain ⟨memory, outcome, later⟩ := buffered.addHeaderLine_begin space complete
              line_plain (Nat.lt_of_le_of_lt longer (fits.2 logical member))
            rw [outcome] at clean
            have recorded_state :=
              (recordHeaders_state platform (pendingHeaders [current]) request).1.trans state_eq
            exact ⟨complete,
              ih later recorded_state nonempty_later plain_later fits.2 clean⟩
          · have failed : (addHeaderLine platform request (first :: rest)).error = true :=
              buffered.addHeaderLine_error complete (Or.inr space)
            rw [foldl_rqAddLine_error failed] at clean
            cases clean

end

/-! ## Recorded values -/

/-- The elements which `_get_protocols` adds for a value. -/
def protocolNames (value : List UInt8) : List (List UInt8) :=
  (tokens isComma (value.take 63)).map fun token => (trim token).take 15

/-- A token of the stored part of a value is `Upgrade`. -/
def hasUpgradeToken (value : List UInt8) : Bool :=
  (tokens isComma (value.take 63)).any fun token =>
    equalNocase ((trim token).take 15) (text "Upgrade")

/-- The values of the headers which the parser knows. -/
structure FieldValues where
  host : List (List UInt8)
  upgrade : List (List UInt8)
  connection : List (List UInt8)
  key : List (List UInt8)
  protocol : List (List UInt8)
  version : List (List UInt8)
  origin : List (List UInt8)

/-- The values of the headers which the parser knows, without their leading whitespace. -/
def fieldValues (headers : List Header) : FieldValues :=
  { host := valuesOf (text "host") headers
    upgrade := valuesOf (text "upgrade") headers
    connection := valuesOf (text "connection") headers
    key := valuesOf (text "Sec-WebSocket-Key") headers
    protocol := valuesOf (text "Sec-WebSocket-Protocol") headers
    version := valuesOf (text "Sec-WebSocket-Version") headers
    origin := valuesOf (text "Origin") headers }

/-- The last of some values, empty if there is none. -/
def lastOf (values : List (List UInt8)) : List UInt8 :=
  values.getLast?.getD []

/-- The fields of a request in terms of its request line and its headers. -/
structure Records (platform : Platform) (method resource : List UInt8) (values : FieldValues)
    (request : Request) : Prop where
  method_holds : request.methodStr.Holds 16 method
  resource_holds : request.resourceStr.Holds 256 resource
  host_holds : request.hostStr.Holds 256 (lastOf values.host)
  upgrade_sized : request.upgradeStr.Sized 64
  upgrade_found : request.flUpgradeFound =
    values.upgrade.any fun value => equalNocase (value.take 63) (text "websocket")
  connection_sized : request.connectionStr.Sized 64
  connection_found : request.flConnectionFound =
    values.connection.any fun value =>
      hasUpgradeToken value || decide (platform.missingReturn (value.take 63) ≠ 0)
  key_holds : request.wsKeyStr.Holds 64 (lastOf values.key)
  protocol_sized : request.wsProtocolStr.Sized 64
  protocols_eq : request.protocols.map (fun element => cstr element.buffer) =
    (values.protocol.flatMap protocolNames).reverse
  version_holds : request.wsVersionStr.Holds 32 (lastOf values.version)
  origin_holds : request.originStr.Holds 256 ((lastOf values.origin).map tolower)

theorem valuesOf_concat (name : List UInt8) (headers : List Header) (header : Header) :
    valuesOf name (headers ++ [header]) =
      if equalNocase header.key name then valuesOf name headers ++ [trimLeft header.value]
      else valuesOf name headers := by
  simp only [valuesOf, List.filter_append, List.map_append]
  split <;> simp_all

@[simp] theorem lastOf_concat (values : List (List UInt8)) (value : List UInt8) :
    lastOf (values ++ [value]) = value := by
  simp [lastOf]

section

variable {platform : Platform}

theorem strLocal_sized {size : Nat} (positive : 0 < size) : (strLocal size).Sized size :=
  (Str.Sized.strInit positive (by simp)).sized

theorem cstr_strTrimWhitespace {token : List UInt8} (plain : 0 ∉ token) :
    cstr (strTrimWhitespace platform (strLocal 16) token).buffer = (trim token).take 15 :=
  ((strLocal_sized (by decide)).strTrimWhitespace platform (by decide) plain).string_eq

theorem cstr_protocolElement {token : List UInt8} (plain : 0 ∉ token) (literal : 37 ∉ token) :
    cstr (protocolElement platform token).buffer = (trim token).take 15 := by
  have trimmed :=
    (strLocal_sized (show 0 < 16 by decide)).strTrimWhitespace platform (by decide) plain
  have copied := Str.Holds.strCopyString platform (strLocal_sized (show 0 < 16 by decide))
    (by decide) trimmed (fun member => literal (mem_of_mem_trim member))
  rw [protocolElement, copied.string_eq, List.take_take, Nat.min_self]

theorem getProtocols_protocols {request : Request} {value : List UInt8}
    (holds : request.wsProtocolStr.Holds 64 value) (plain : 0 ∉ value) (literal : 37 ∉ value) :
    (getProtocols platform request).protocols.map (fun element => cstr element.buffer) =
      (protocolNames value).reverse ++
        request.protocols.map fun element => cstr element.buffer := by
  rw [getProtocols, holds.string_eq, List.map_append, List.map_reverse, List.map_map,
    protocolNames]
  congr 2
  refine List.map_congr_left fun token member => ?_
  have inside : ∀ byte ∈ token, byte ∈ value := fun byte found =>
    List.mem_of_mem_take (mem_of_mem_tokens member found)
  exact cstr_protocolElement (fun zero => plain (inside 0 zero))
    (fun percent => literal (inside 37 percent))

theorem getProtocols_sized {request : Request} {value : List UInt8}
    (holds : request.wsProtocolStr.Holds 64 value) :
    (getProtocols platform request).wsProtocolStr.Sized 64 := by
  obtain ⟨capacity_eq, length_eq⟩ := holds.sized
  refine ⟨capacity_eq, ?_⟩
  rw [getProtocols, length_overwrite, length_eq]
  rw [length_spoil, holds.string_eq, length_eq, List.length_take]
  omega

theorem findConnectionUpgrade_eq (platform : Platform) (request : Request) {value : List UInt8}
    (holds : request.connectionStr.Holds 64 value) (plain : 0 ∉ value) (literal : 37 ∉ value) :
    findConnectionUpgrade platform request =
      if hasUpgradeToken value then 1 else platform.missingReturn (value.take 63) := by
  have copied := Str.Holds.strCopyString platform (strLocal_sized (show 0 < 64 by decide))
    (by decide) holds literal
  have string_eq := copied.string_eq
  rw [List.take_take, Nat.min_self] at string_eq
  have found : ((tokens isComma (value.take 63)).any fun token =>
      strIsEqualNocase (strTrimWhitespace platform (strLocal 16) token) (text "Upgrade")) =
        hasUpgradeToken value := by
    rw [hasUpgradeToken, Bool.eq_iff_iff, List.any_eq_true, List.any_eq_true]
    refine exists_congr fun token => and_congr_right fun member => ?_
    rw [strIsEqualNocase, cstr_strTrimWhitespace]
    exact fun zero => plain (List.mem_of_mem_take (mem_of_mem_tokens member zero))
  rw [findConnectionUpgrade, string_eq, found, holds.string_eq]

theorem findConnectionUpgrade_ne_zero (platform : Platform) (request : Request)
    {value : List UInt8}
    (holds : request.connectionStr.Holds 64 value) (plain : 0 ∉ value) (literal : 37 ∉ value) :
    decide (findConnectionUpgrade platform request ≠ 0) =
      (hasUpgradeToken value || decide (platform.missingReturn (value.take 63) ≠ 0)) := by
  rw [findConnectionUpgrade_eq platform request holds plain literal]
  cases hasUpgradeToken value <;> simp

variable {method resource : List UInt8} {headers : List Header} {request : Request}

/-- Processing one header. -/
theorem Records.recordHeader {header : Header}
    (records : Records platform method resource (fieldValues headers) request)
    (plain : 0 ∉ header.value) (literal : 37 ∉ header.value) :
    Records platform method resource (fieldValues (headers ++ [header]))
      (recordHeader platform request header) := by
  have trimmed_plain : 0 ∉ trimLeft header.value :=
    fun member => plain ((List.dropWhile_sublist isspace).subset member)
  have trimmed_literal : 37 ∉ trimLeft header.value :=
    fun member => literal ((List.dropWhile_sublist isspace).subset member)
  unfold Jabsocket.recordHeader rqProcess
  split_ifs with host upgrade connection key protocol version origin
  · have grown : fieldValues (headers ++ [header]) =
        { fieldValues headers with
          host := (fieldValues headers).host ++ [trimLeft header.value] } := by
      simp +decide [fieldValues, valuesOf_concat, equalNocase_left host]
    rw [grown]
    refine { records with host_holds := ?_ }
    rw [lastOf_concat]
    exact records.host_holds.sized.strTrimBeginning platform (by decide) plain literal
  · have grown : fieldValues (headers ++ [header]) =
        { fieldValues headers with
          upgrade := (fieldValues headers).upgrade ++ [trimLeft header.value] } := by
      simp +decide [fieldValues, valuesOf_concat, equalNocase_left upgrade]
    have holds := records.upgrade_sized.strTrimBeginning platform (by decide) plain literal
    rw [grown]
    refine { records with upgrade_sized := holds.sized, upgrade_found := ?_ }
    simp [records.upgrade_found, strIsEqualNocase, holds.string_eq]
  · have grown : fieldValues (headers ++ [header]) =
        { fieldValues headers with
          connection := (fieldValues headers).connection ++ [trimLeft header.value] } := by
      simp +decide [fieldValues, valuesOf_concat, equalNocase_left connection]
    have holds := records.connection_sized.strTrimBeginning platform (by decide) plain literal
    rw [grown]
    refine { records with connection_sized := holds.sized, connection_found := ?_ }
    have found := findConnectionUpgrade_ne_zero platform
      { request with
        connectionStr := strTrimBeginning platform request.connectionStr header.value }
      holds trimmed_plain trimmed_literal
    simp only [found, List.any_append, List.any_cons, List.any_nil, Bool.or_false]
    rw [records.connection_found]
  · have grown : fieldValues (headers ++ [header]) =
        { fieldValues headers with
          key := (fieldValues headers).key ++ [trimLeft header.value] } := by
      simp +decide [fieldValues, valuesOf_concat, equalNocase_left key]
    rw [grown]
    refine { records with key_holds := ?_ }
    rw [lastOf_concat]
    exact records.key_holds.sized.strTrimBeginning platform (by decide) plain literal
  · have grown : fieldValues (headers ++ [header]) =
        { fieldValues headers with
          protocol := (fieldValues headers).protocol ++ [trimLeft header.value] } := by
      simp +decide [fieldValues, valuesOf_concat, equalNocase_left protocol]
    have holds := records.protocol_sized.strTrimBeginning platform (by decide) plain literal
    rw [grown]
    refine { records with protocol_sized := getProtocols_sized holds, protocols_eq := ?_ }
    rw [getProtocols_protocols holds trimmed_plain trimmed_literal, records.protocols_eq]
    simp
  · have grown : fieldValues (headers ++ [header]) =
        { fieldValues headers with
          version := (fieldValues headers).version ++ [trimLeft header.value] } := by
      simp +decide [fieldValues, valuesOf_concat, equalNocase_left version]
    rw [grown]
    refine { records with version_holds := ?_ }
    rw [lastOf_concat]
    exact records.version_holds.sized.strTrimBeginning platform (by decide) plain literal
  · have grown : fieldValues (headers ++ [header]) =
        { fieldValues headers with
          origin := (fieldValues headers).origin ++ [trimLeft header.value] } := by
      simp +decide [fieldValues, valuesOf_concat, equalNocase_left origin]
    rw [grown]
    refine { records with origin_holds := ?_ }
    rw [lastOf_concat]
    exact (records.origin_holds.sized.strTrimBeginning platform (by decide) plain
      literal).strTolower (by decide) trimmed_plain
  · have grown : fieldValues (headers ++ [header]) = fieldValues headers := by
      simp [fieldValues, valuesOf_concat, host, upgrade, connection, key, protocol, version,
        origin]
    rw [grown]
    exact records

theorem Records.recordHeaders {later : List Header}
    (records : Records platform method resource (fieldValues headers) request)
    (plain : ∀ header ∈ later, 0 ∉ header.value) (literal : ∀ header ∈ later, 37 ∉ header.value) :
    Records platform method resource (fieldValues (headers ++ later))
      (recordHeaders platform later request) := by
  induction later generalizing headers request with
  | nil => simpa [Jabsocket.recordHeaders] using records
  | cons header later ih =>
      have step := records.recordHeader (plain header (by simp)) (literal header (by simp))
      have rest := ih step (fun other member => plain other (by simp [member]))
        (fun other member => literal other (by simp [member]))
      rwa [List.append_assoc, List.singleton_append] at rest

end

/-! ## Requests -/

/-- A request as the browser sends it: the request line, then the header lines. -/
structure RequestText where
  requestLine : List UInt8
  headerLines : List (List UInt8)
  deriving DecidableEq, Repr

namespace RequestText

/-- The lines of a request which the parser reads without cutting or failing: at least three
tokens in the request line, and every logical header with a colon, shorter than the line buffer and
without a conversion specification for `vsnprintf`.  Lines are C strings. -/
@[mk_iff] structure Readable (sent : RequestText) : Prop where
  three_tokens : 3 ≤ (tokens isBlank sent.requestLine).length
  nonempty : ∀ line ∈ sent.headerLines, line ≠ []
  plain : ∀ line ∈ sent.headerLines, 0 ∉ line
  colon : ∀ logical ∈ logicalLines sent.headerLines, 58 ∈ logical
  short : ∀ logical ∈ logicalLines sent.headerLines, logical.length < 4095
  literal : ∀ logical ∈ logicalLines sent.headerLines, 37 ∉ logical

instance (sent : RequestText) : Decidable sent.Readable :=
  decidable_of_iff _ (readable_iff sent).symm

/-- The method in the request line. -/
def method (sent : RequestText) : List UInt8 :=
  (tokens isBlank sent.requestLine).getD 0 []

/-- The resource in the request line. -/
def resource (sent : RequestText) : List UInt8 :=
  (tokens isBlank sent.requestLine).getD 1 []

/-- The string which `str_set_string` stores for a token of the request line, before it is cut. -/
def printed (platform : Platform) (token : List UInt8) : List UInt8 :=
  cstr (formatOutput platform token)

/-- The values of the headers. -/
def values (sent : RequestText) : FieldValues :=
  fieldValues (headersOf sent.headerLines)

/-- Give the lines of a request, and the empty line at the end, to a new parser. -/
def submit (platform : Platform) (memory : Nat → UInt8) (sent : RequestText) : Request :=
  (sent.requestLine :: sent.headerLines ++ [[]]).foldl (rqAddLine platform) (rqCreate memory)

theorem mem_logicalFrom {current logical : List UInt8} {lines : List (List UInt8)} {byte : UInt8}
    (found : logical ∈ logicalFrom current lines) (member : byte ∈ logical) :
    byte ∈ current ∨ ∃ line ∈ lines, byte ∈ line := by
  induction lines generalizing current with
  | nil =>
      obtain rfl : logical = current := by simpa [logicalFrom] using found
      exact Or.inl member
  | cons line lines ih =>
      rw [logicalFrom] at found
      split at found
      · obtain before | ⟨other, later, inside⟩ := ih found
        · obtain earlier | inside := List.mem_append.mp before
          · exact Or.inl earlier
          · exact Or.inr ⟨line, by simp, List.mem_of_mem_tail inside⟩
        · exact Or.inr ⟨other, by simp [later], inside⟩
      · obtain rfl | later := List.mem_cons.mp found
        · exact Or.inl member
        · obtain inside | ⟨other, after, inside⟩ := ih later
          · exact Or.inr ⟨line, by simp, inside⟩
          · exact Or.inr ⟨other, by simp [after], inside⟩

theorem mem_of_mem_splitHeader {logical : List UInt8} {byte : UInt8}
    (member : byte ∈ (splitHeader logical).value) : byte ∈ logical :=
  (List.dropWhile_sublist _).subset (List.mem_of_mem_tail member)

theorem rqCreate_records (platform : Platform) (memory : Nat → UInt8) :
    Records platform [] [] (fieldValues []) (rqCreate memory) := by
  have fresh : ∀ offset size, 0 < size →
      (strInit (allocated memory offset size) size).Holds size [] :=
    fun offset size positive => Str.Sized.strInit positive (by simp [allocated])
  exact
    { method_holds := fresh _ _ (by decide)
      resource_holds := fresh _ _ (by decide)
      host_holds := fresh _ _ (by decide)
      upgrade_sized := (fresh _ _ (by decide)).sized
      upgrade_found := rfl
      connection_sized := (fresh _ _ (by decide)).sized
      connection_found := rfl
      key_holds := fresh _ _ (by decide)
      protocol_sized := (fresh _ _ (by decide)).sized
      protocols_eq := rfl
      version_holds := fresh _ _ (by decide)
      origin_holds := fresh _ _ (by decide) }

/-- A request line which is read has a method, a resource and a protocol. -/
theorem exists_tokens {line : List UInt8} (three_tokens : 3 ≤ (tokens isBlank line).length) :
    ∃ method resource protocol others,
      tokens isBlank line = method :: resource :: protocol :: others := by
  rcases tokens_eq : tokens isBlank line with - | ⟨method, - | ⟨resource, - | ⟨protocol, others⟩⟩⟩
  · simp [tokens_eq] at three_tokens
  · simp [tokens_eq] at three_tokens
  · simp [tokens_eq] at three_tokens
  · exact ⟨method, resource, protocol, others, rfl⟩

/-- The request line is read, and the line buffer is emptied. -/
theorem records_addRequestLine {sent : RequestText}
    (three_tokens : 3 ≤ (tokens isBlank sent.requestLine).length) (platform : Platform)
    (memory : Nat → UInt8) :
    Records platform (printed platform sent.method) (printed platform sent.resource)
        (fieldValues [])
        (addRequestLine platform (rqCreate memory) sent.requestLine) ∧
      Buffered (addRequestLine platform (rqCreate memory) sent.requestLine) [] ∧
      (addRequestLine platform (rqCreate memory) sent.requestLine).state = .header ∧
      (addRequestLine platform (rqCreate memory) sent.requestLine).error = false := by
  obtain ⟨method, resource, protocol, others, tokens_eq⟩ := exists_tokens three_tokens
  have created := rqCreate_records platform memory
  simp only [addRequestLine, parseRequestLine, tokens_eq, RequestText.method,
    RequestText.resource, List.getD_cons_zero, List.getD_cons_succ]
  refine ⟨{ created with method_holds := ?_, resource_holds := ?_ }, ⟨?_, ?_, by decide⟩,
    trivial, rfl⟩
  · exact created.method_holds.sized.strPrint (by decide) _
  · exact created.resource_holds.sized.strPrint (by decide) _
  · rw [length_overwrite]
    · simp [rqCreate, allocated]
    · simp [rqCreate, allocated, lineBufferSize]
  · simpa using cstr_overwrite_terminated _ (List.not_mem_nil (a := (0 : UInt8)))

theorem header_plain {lines : List (List UInt8)} (plain : ∀ line ∈ lines, 0 ∉ line)
    {header : Header} (found : header ∈ headersOf lines) : 0 ∉ header.value := by
  intro zero
  obtain ⟨logical, member, rfl⟩ := List.mem_map.mp found
  obtain absent | ⟨line, line_mem, inside⟩ :=
    mem_logicalFrom (List.mem_filter.mp member).1 (mem_of_mem_splitHeader zero)
  · simp at absent
  · exact plain line line_mem inside

/-- Every header of a readable request is processed once, in order. -/
theorem Readable.submit_eq {sent : RequestText} (readable : sent.Readable) (platform : Platform)
    (memory : Nat → UInt8) :
    ∃ line, sent.submit platform memory =
      { recordHeaders platform (headersOf sent.headerLines)
          (addRequestLine platform (rqCreate memory) sent.requestLine) with
        line, done := true } := by
  obtain ⟨-, buffered, state_eq, -⟩ :=
    records_addRequestLine readable.three_tokens platform memory
  have logical_mem : ∀ logical ∈ logicalFrom [] sent.headerLines, logical ≠ [] →
      logical ∈ logicalLines sent.headerLines :=
    fun logical found nonempty => List.mem_filter.mpr ⟨found, by simpa using nonempty⟩
  exact buffered.foldl_rqAddLine platform state_eq readable.nonempty readable.plain
    (fun logical found nonempty => readable.colon logical (logical_mem logical found nonempty))
    (fun logical found => by
      by_cases empty : logical = []
      · simp [empty]
      · exact readable.short logical (logical_mem logical found empty))

/-- Every field of the request is determined by the text which was sent. -/
theorem Readable.records {sent : RequestText} (readable : sent.Readable) (platform : Platform)
    (memory : Nat → UInt8) :
    Records platform (printed platform sent.method) (printed platform sent.resource) sent.values
        (sent.submit platform memory) ∧
      (sent.submit platform memory).done = true ∧
      (sent.submit platform memory).error = false := by
  obtain ⟨started, -, -, error_eq⟩ :=
    records_addRequestLine readable.three_tokens platform memory
  obtain ⟨final, run⟩ := readable.submit_eq platform memory
  have headers_literal : ∀ header ∈ headersOf sent.headerLines, 37 ∉ header.value := by
    intro header found percent
    obtain ⟨logical, member, rfl⟩ := List.mem_map.mp found
    exact readable.literal logical member (mem_of_mem_splitHeader percent)
  have recorded := started.recordHeaders (fun _ => header_plain readable.plain) headers_literal
  rw [run]
  exact ⟨{ recorded with }, rfl, (recordHeaders_state platform _ _).2.trans error_eq⟩

/-- A request whose headers the line buffer can hold, and whose header values are no conversion
specifications. -/
@[mk_iff] structure Sendable (sent : RequestText) : Prop where
  nonempty : ∀ line ∈ sent.headerLines, line ≠ []
  plain : ∀ line ∈ sent.headerLines, 0 ∉ line
  short : ∀ logical ∈ logicalLines sent.headerLines, logical.length < 4095
  literal : ∀ logical ∈ logicalLines sent.headerLines, 37 ∉ logical

instance (sent : RequestText) : Decidable sent.Sendable :=
  decidable_of_iff _ (sendable_iff sent).symm

/-- A request which is parsed without an error is readable. -/
theorem Sendable.readable {sent : RequestText} (sendable : sent.Sendable) {platform : Platform}
    {memory : Nat → UInt8} (clean : (sent.submit platform memory).error = false) :
    sent.Readable := by
  have first : rqAddLine platform (rqCreate memory) sent.requestLine =
      addRequestLine platform (rqCreate memory) sent.requestLine := rfl
  rw [submit, List.cons_append, List.foldl_cons, first] at clean
  have three_tokens : 3 ≤ (tokens isBlank sent.requestLine).length := by
    by_contra fewer
    have failed :
        (addRequestLine platform (rqCreate memory) sent.requestLine).error = true := by
      unfold addRequestLine parseRequestLine
      match found : tokens isBlank sent.requestLine with
      | [] => rfl
      | [_] => rfl
      | [_, _] => rfl
      | _ :: _ :: _ :: _ => simp [found] at fewer
    rw [foldl_rqAddLine_error failed] at clean
    cases clean
  obtain ⟨-, buffered, state_eq, -⟩ := records_addRequestLine three_tokens platform memory
  have fits : ∀ logical ∈ logicalFrom [] sent.headerLines, logical.length < 4095 := by
    intro logical found
    by_cases empty : logical = []
    · simp [empty]
    · exact sendable.short logical (List.mem_filter.mpr ⟨found, by simpa using empty⟩)
  have complete :=
    buffered.complete_of_run state_eq sendable.nonempty sendable.plain fits clean
  refine ⟨three_tokens, sendable.nonempty, sendable.plain, ?_, sendable.short, sendable.literal⟩
  intro logical member
  obtain ⟨found, nonempty⟩ := List.mem_filter.mp member
  exact complete logical found (by simpa using nonempty)

end RequestText

end Jabsocket
