import Jabsocket.Base64Coding
import Jabsocket.Fields
import Jabsocket.HandshakeInput

/-!
# The answer to a request

What the browser receives for a request whose values fit into the buffers of the parser, as the
lines of an HTTP response.  The verdict follows from the headers of the request, and no buffer cuts
the lines of the answer.
-/

namespace Jabsocket

/-- What is decided about a request. -/
inductive Verdict where
  | methodNotAllowed
  | forbidden
  | badRequest
  | notFound
  | upgradeRequired
  | accepted
  deriving DecidableEq, Repr

namespace RequestText

/-! ## Specification -/

/-- The request comes from an origin which is allowed. -/
def OriginAllowed (platform : Platform) (conf : JsConf) (sent : RequestText) : Prop :=
  conf.originList = [] ∨ ∃ pattern ∈ conf.originList,
    platform.fnmatch pattern ((lastOf sent.values.origin).map tolower) = true

instance (platform : Platform) (conf : JsConf) (sent : RequestText) :
    Decidable (sent.OriginAllowed platform conf) :=
  inferInstanceAs (Decidable (_ ∨ _))

/-- The program finds `Upgrade` in a Connection header. -/
def UpgradeFound (platform : Platform) (sent : RequestText) : Prop :=
  sent.AsksForUpgrade ∨ ∃ value ∈ sent.values.connection, platform.missingReturn value ≠ 0

instance (platform : Platform) (sent : RequestText) : Decidable (sent.UpgradeFound platform) :=
  inferInstanceAs (Decidable (_ ∨ _))

/-- The request asks this host for `xmpp` in a WebSocket. -/
@[mk_iff] structure WellAsked (platform : Platform) (conf : JsConf) (sent : RequestText) :
    Prop where
  protocol : sent.OffersXmpp
  key : lastOf sent.values.key ≠ []
  host : ∀ host ∈ conf.host, host = lastOf sent.values.host
  upgrade : ∃ value ∈ sent.values.upgrade, equalNocase value (text "websocket") = true
  connection : sent.UpgradeFound platform

instance (platform : Platform) (conf : JsConf) (sent : RequestText) :
    Decidable (sent.WellAsked platform conf) :=
  decidable_of_iff _ (wellAsked_iff platform conf sent).symm

/-- What is to be decided about a request. -/
def verdict (platform : Platform) (conf : JsConf) (sent : RequestText) : Verdict :=
  if equalNocase sent.method (text "GET") = false then .methodNotAllowed
  else if ¬ sent.OriginAllowed platform conf then .forbidden
  else if ¬ sent.WellAsked platform conf then .badRequest
  else if ¬ ∀ resource ∈ conf.resource, equalNocase sent.resource resource = true then .notFound
  else if lastOf sent.values.version ≠ text "13" then .upgradeRequired
  else .accepted

/-- The value which proves to the browser that its key was read. -/
def acceptValue (platform : Platform) (sent : RequestText) : List UInt8 :=
  Rfc4648.encode (platform.sha1 (lastOf sent.values.key ++ magicString))

/-- The lines of the response, with the empty line at their end. -/
def answer (platform : Platform) (sent : RequestText) : Verdict → List (List UInt8)
  | .methodNotAllowed => [text "HTTP/1.1 405 Method Not Allowed", []]
  | .forbidden => [text "HTTP/1.1 403 Forbidden", []]
  | .badRequest => [text "HTTP/1.1 400 Bad Request", []]
  | .notFound => [text "HTTP/1.1 404 Not Found", []]
  | .upgradeRequired =>
      [text "HTTP/1.1 426 Upgrade Required", text "Sec-WebSocket-Version: 13", []]
  | .accepted =>
      [text "HTTP/1.1 101 Switching Protocols", text "Upgrade: websocket",
        text "Connection: " ++ lastOf sent.values.connection,
        text "Sec-WebSocket-Accept: " ++ sent.acceptValue platform,
        text "Sec-WebSocket-Protocol: xmpp", []]

/-! ## The stored values -/

section

variable {platform : Platform} {sent : RequestText}

theorem retains_recordHeaders {field : Field} {request : Request} {headers later : List Header}
    (retains : field.Retains (field.value headers) (field.str request))
    (plain : ∀ header ∈ later, 0 ∉ header.value) (literal : ∀ header ∈ later, 37 ∉ header.value) :
    field.Retains (field.value (headers ++ later))
      (field.str (recordHeaders platform later request)) := by
  induction later generalizing headers request with
  | nil => simpa [recordHeaders] using retains
  | cons header later ih =>
      have step := @Field.retains_recordHeader platform field request headers header retains
        (plain header (by simp)) (literal header (by simp))
      have rest := ih step (fun other member => plain other (by simp [member]))
        (fun other member => literal other (by simp [member]))
      rwa [List.append_assoc, List.singleton_append] at rest

/-- The Connection header which the response repeats. -/
theorem Fits.connection_eq (fits : sent.Fits) (memory : Nat → UInt8) :
    cstr (sent.submit platform memory).connectionStr.buffer = lastOf sent.values.connection := by
  obtain ⟨line, submit_eq⟩ := fits.toReadable.submit_eq platform memory
  obtain ⟨method, resource, protocol, others, tokens_eq⟩ := exists_tokens fits.three_tokens
  have started : Field.connection.Retains (Field.connection.value [])
      (addRequestLine platform (rqCreate memory) sent.requestLine).connectionStr := by
    rw [addRequestLine, parseRequestLine, tokens_eq]
    exact Field.retains_empty (Str.Sized.strInit (by decide) (by simp [allocated]))
  have literal : ∀ header ∈ headersOf sent.headerLines, 37 ∉ header.value := by
    intro header found percent
    obtain ⟨logical, member, rfl⟩ := List.mem_map.mp found
    exact fits.literal logical member (mem_of_mem_splitHeader percent)
  have retained := @retains_recordHeaders platform .connection _ [] _ started
    (fun _ => header_plain fits.plain) literal
  have value_eq : Field.connection.value (headersOf sent.headerLines) =
      lastOf sent.values.connection :=
    List.take_of_length_le (lastOf_length_le fits.connection_fits)
  rw [submit_eq]
  exact (retained.string_eq_self (by simp)).trans value_eq

/-- What `rq_get_access` makes of the key. -/
theorem acceptValue_eq (digest : ∀ bytes, (platform.sha1 bytes).length = 20)
    (key_fits : (lastOf sent.values.key).length ≤ 63) :
    cstr (rqGetAccess platform (lastOf sent.values.key) (strLocal 64)).buffer =
      sent.acceptValue platform := by
  have whole : (lastOf sent.values.key ++ magicString).take 1023 =
      lastOf sent.values.key ++ magicString := by
    refine List.take_of_length_le ?_
    have magic : magicString.length = 36 := by decide
    simp only [List.length_append, magic]
    omega
  have room : (Rfc4648.encode (platform.sha1 (lastOf sent.values.key ++ magicString))).length <
      64 := by
    rw [Rfc4648.length_encode, digest]
    decide
  obtain ⟨-, -, later, buffer_eq⟩ :=
    base64Encode_stores (strLocal_sized (by decide : 0 < 64)) room
  rw [rqGetAccess, whole, buffer_eq, cstr_of_terminated (Rfc4648.zero_notMem_encode _)]
  rfl

/-- The strings and flags which `rq_analyze` looks at, for a request whose values fit. -/
structure Presents (platform : Platform) (conf : JsConf) (sent : RequestText) (request : Request) :
    Prop where
  method_eq : strIsEqualNocase request.methodStr (text "GET") =
    equalNocase sent.method (text "GET")
  origin_iff : configCheckOrigin platform conf (cstr request.originStr.buffer) = true ↔
    sent.OriginAllowed platform conf
  protocol_iff : rqProtocolsContains request (text "xmpp") = true ↔ sent.OffersXmpp
  key_eq : cstr request.wsKeyStr.buffer = lastOf sent.values.key
  host_eq : cstr request.hostStr.buffer = lastOf sent.values.host
  upgrade_iff : request.flUpgradeFound = true ↔
    ∃ value ∈ sent.values.upgrade, equalNocase value (text "websocket") = true
  connection_iff : request.flConnectionFound = true ↔ sent.UpgradeFound platform
  resource_eq : ∀ resource, strIsEqualNocase request.resourceStr resource =
    equalNocase sent.resource resource
  version_eq : cstr request.wsVersionStr.buffer = lastOf sent.values.version
  echoed : cstr request.connectionStr.buffer = lastOf sent.values.connection

theorem Fits.presents (fits : sent.Fits) (memory : Nat → UInt8) (conf : JsConf) :
    sent.Presents platform conf (sent.submit platform memory) := by
  obtain ⟨records, -, -⟩ := fits.toReadable.records platform memory
  have method_eq : (printed platform sent.method).take 15 = sent.method := by
    rw [fits.printed_method, List.take_of_length_le fits.method_fits]
  have resource_eq : (printed platform sent.resource).take 255 = sent.resource := by
    rw [fits.printed_resource, List.take_of_length_le fits.resource_fits]
  have origin_eq : ((lastOf sent.values.origin).map tolower).take 255 =
      (lastOf sent.values.origin).map tolower :=
    List.take_of_length_le (by simpa using lastOf_length_le fits.origin_fits)
  refine ⟨?_, ?_, ?_, ?_, ?_, ?_, ?_, fun resource => ?_, ?_, fits.connection_eq memory⟩
  · rw [strIsEqualNocase, records.method_holds.string_eq, method_eq]
  · rw [records.origin_holds.string_eq, origin_eq]
    simp [configCheckOrigin, OriginAllowed]
  · have member := congrArg (text "xmpp" ∈ ·) records.protocols_eq
    simp only [List.mem_map, List.mem_reverse, List.mem_flatMap] at member
    rw [← fits.offersXmpp_iff, ← member]
    simp [rqProtocolsContains]
  · rw [records.key_holds.string_eq]
    exact List.take_of_length_le (lastOf_length_le fits.key_fits)
  · rw [records.host_holds.string_eq]
    exact List.take_of_length_le (lastOf_length_le fits.host_fits)
  · rw [records.upgrade_found, List.any_eq_true]
    refine exists_congr fun value => and_congr_right fun member => ?_
    rw [List.take_of_length_le (fits.upgrade_fits value member)]
  · rw [records.connection_found, List.any_eq_true, UpgradeFound, AsksForUpgrade, Lists,
      ← exists_or]
    refine exists_congr fun value => ?_
    rw [← and_or_left]
    refine and_congr_right fun member => ?_
    rw [Bool.or_eq_true, decide_eq_true_eq, fits.hasUpgradeToken_iff member,
      List.take_of_length_le (fits.connection_fits value member)]
  · rw [strIsEqualNocase, records.resource_holds.string_eq, resource_eq]
  · rw [records.version_holds.string_eq]
    exact List.take_of_length_le (lastOf_length_le fits.version_fits)

/-- The response and the result for a verdict. -/
def decided (platform : Platform) (sent : RequestText) (response : Str) (verdict : Verdict) :
    Str × Int :=
  (strPrint response (wireLines (sent.answer platform verdict)),
    if verdict = .accepted then 1 else 0)

/-- `rq_analyze` decides as the headers of the request demand. -/
theorem Presents.rqAnalyze_eq {conf : JsConf} {request : Request}
    (presents : sent.Presents platform conf request)
    (digest : ∀ bytes, (platform.sha1 bytes).length = 20)
    (key_fits : (lastOf sent.values.key).length ≤ 63) (response : Str) :
    rqAnalyze platform request conf response =
      decided platform sent response (sent.verdict platform conf) := by
  have refused (status : String) : wireLines [text status, []] = refusal status := by
    simp only [wireLines, refusal, List.flatMap_cons, List.flatMap_nil, List.append_nil,
      List.nil_append]
  rw [rqAnalyze, verdict, presents.method_eq, presents.key_eq, presents.host_eq,
    presents.version_eq, presents.echoed]
  by_cases method : equalNocase sent.method (text "GET") = false
  · rw [if_pos method, if_pos (by rw [method]; rfl), decided, answer, refused]
    rfl
  rw [if_neg method, if_neg (by simpa using method)]
  by_cases origin : sent.OriginAllowed platform conf
  swap
  · rw [if_pos origin, if_pos (by simpa [← presents.origin_iff] using origin), decided, answer,
      refused]
    rfl
  rw [if_neg (not_not.mpr origin), if_neg (by simp [presents.origin_iff.mpr origin])]
  have host_iff : (conf.host.any fun host => host != lastOf sent.values.host) = true ↔
      ¬ ∀ host ∈ conf.host, host = lastOf sent.values.host := by
    cases conf.host <;> simp
  have asked_iff : ((((!rqProtocolsContains request (text "xmpp")) = true ∨
      lastOf sent.values.key = []) ∨
        (conf.host.any fun host => host != lastOf sent.values.host) = true) ∨
          (!request.flUpgradeFound) = true) ∨ (!request.flConnectionFound) = true ↔
            ¬ sent.WellAsked platform conf := by
    rw [wellAsked_iff, host_iff, ← presents.protocol_iff, ← presents.upgrade_iff,
      ← presents.connection_iff]
    simp only [Bool.not_eq_true', not_and_or, ne_eq, not_not, Bool.not_eq_true, or_assoc]
  rw [← ite_or, ← ite_or, ← ite_or, ← ite_or]
  by_cases asked : sent.WellAsked platform conf
  swap
  · rw [if_pos asked, if_pos (asked_iff.mpr asked), decided, answer, refused]
    rfl
  rw [if_neg (not_not.mpr asked), if_neg (by rwa [asked_iff, not_not])]
  have resource_iff : (conf.resource.any fun resource =>
      !strIsEqualNocase request.resourceStr resource) = true ↔
        ¬ ∀ resource ∈ conf.resource, equalNocase sent.resource resource = true := by
    simp only [presents.resource_eq]
    cases conf.resource <;> simp
  by_cases served : ∀ resource ∈ conf.resource, equalNocase sent.resource resource = true
  swap
  · rw [if_pos served, if_pos (resource_iff.mpr served), decided, answer, refused]
    rfl
  rw [if_neg (not_not.mpr served), if_neg (by rwa [resource_iff, not_not])]
  by_cases version : lastOf sent.values.version = text "13"
  swap
  · rw [if_pos version, if_pos version]
    simp only [decided, answer, wireLines, List.flatMap_cons, List.flatMap_nil, List.append_assoc,
      List.append_nil, List.nil_append]
    rfl
  rw [if_neg (not_not.mpr version), if_neg (not_not.mpr version)]
  simp only [acceptValue_eq digest key_fits, decided, answer, wireLines, List.flatMap_cons,
    List.flatMap_nil, List.append_assoc, List.append_nil, List.nil_append]
  rfl

/-! ## The bytes of the answer -/

theorem lastOf_mem_or {values : List (List UInt8)} :
    lastOf values ∈ values ∨ lastOf values = [] := by
  cases found : values.getLast? with
  | none => exact Or.inr (by simp [lastOf, found])
  | some value => exact Or.inl (by simpa [lastOf, found] using List.mem_of_getLast? found)

/-- A byte of a stored value is a byte of a header line. -/
theorem mem_line_of_mem_lastOf {name : List UInt8} {byte : UInt8}
    (member : byte ∈ lastOf (valuesOf name (headersOf sent.headerLines))) :
    ∃ line ∈ sent.headerLines, byte ∈ line := by
  obtain found | empty := @lastOf_mem_or (valuesOf name (headersOf sent.headerLines))
  · obtain ⟨header, header_mem, value_eq⟩ := List.mem_map.mp found
    obtain ⟨logical, logical_mem, rfl⟩ := List.mem_map.mp (List.mem_filter.mp header_mem).1
    rw [← value_eq] at member
    have inside := mem_of_mem_splitHeader ((List.dropWhile_sublist isspace).subset member)
    obtain absent | line := mem_logicalFrom (List.mem_filter.mp logical_mem).1 inside
    · exact absurd absent List.not_mem_nil
    · exact line
  · rw [empty] at member
    cases member

/-- A control character in an answer comes from a header line of the request. -/
theorem notMem_answer {byte : UInt8} (control : byte < 32)
    (absent : ∀ line ∈ sent.headerLines, byte ∉ line) (verdict : Verdict) :
    ∀ line ∈ sent.answer platform verdict, byte ∉ line := by
  have printable {string : List UInt8} (high : ∀ other ∈ string, 32 ≤ other) : byte ∉ string :=
    fun member => absurd (high byte member) (UInt8.not_le.mpr control)
  have empty : byte ∉ ([] : List UInt8) := List.not_mem_nil
  have connection : byte ∉ text "Connection: " ++ lastOf sent.values.connection := by
    refine List.not_mem_append (printable (by decide +kernel)) fun member => ?_
    obtain ⟨line, line_mem, inside⟩ := mem_line_of_mem_lastOf member
    exact absent line line_mem inside
  have accept : byte ∉ text "Sec-WebSocket-Accept: " ++ sent.acceptValue platform := by
    refine List.not_mem_append (printable (by decide +kernel)) (printable fun other member => ?_)
    exact UInt8.le_trans (by decide) (Rfc4648.le_of_mem_encode member)
  have refused {status : List UInt8} (high : byte ∉ status) :
      ∀ line ∈ [status, []], byte ∉ line := by
    intro line member
    rcases List.mem_pair.mp member with rfl | rfl
    · exact high
    · exact empty
  cases verdict with
  | methodNotAllowed => exact refused (printable (by decide +kernel))
  | forbidden => exact refused (printable (by decide +kernel))
  | badRequest => exact refused (printable (by decide +kernel))
  | notFound => exact refused (printable (by decide +kernel))
  | upgradeRequired =>
      intro line member
      rcases List.mem_cons.mp member with rfl | member
      · exact printable (by decide +kernel)
      · exact refused (printable (by decide +kernel)) line member
  | accepted =>
      intro line member
      simp only [answer, List.mem_cons, List.not_mem_nil, or_false] at member
      rcases member with rfl | rfl | rfl | rfl | rfl | rfl
      · exact printable (by decide +kernel)
      · exact printable (by decide +kernel)
      · exact connection
      · exact accept
      · exact printable (by decide +kernel)
      · exact empty

/-- An answer fits into the string for the response. -/
theorem length_answer_le (digest : ∀ bytes, (platform.sha1 bytes).length = 20)
    (connection_fits : (lastOf sent.values.connection).length ≤ 63) (verdict : Verdict) :
    (wireLines (sent.answer platform verdict)).length ≤ 1023 := by
  have accept : (sent.acceptValue platform).length = 28 := by
    rw [acceptValue, Rfc4648.length_encode, digest]
  cases verdict with
  | methodNotAllowed =>
      exact (by decide +kernel : (refusal "HTTP/1.1 405 Method Not Allowed").length ≤ 1023)
  | forbidden => exact (by decide +kernel : (refusal "HTTP/1.1 403 Forbidden").length ≤ 1023)
  | badRequest => exact (by decide +kernel : (refusal "HTTP/1.1 400 Bad Request").length ≤ 1023)
  | notFound => exact (by decide +kernel : (refusal "HTTP/1.1 404 Not Found").length ≤ 1023)
  | upgradeRequired =>
      exact (by decide +kernel : (wireLines
        [text "HTTP/1.1 426 Upgrade Required", text "Sec-WebSocket-Version: 13", []]).length ≤ 1023)
  | accepted =>
      have fixed : (text "HTTP/1.1 101 Switching Protocols").length +
          (text "Upgrade: websocket").length + (text "Connection: ").length +
          (text "Sec-WebSocket-Accept: ").length + (text "Sec-WebSocket-Protocol: xmpp").length =
            112 := by decide +kernel
      simp only [answer, wireLines, crlf, List.flatMap_cons, List.flatMap_nil, List.length_append,
        List.length_cons, List.length_nil, accept]
      omega

theorem take_length_cstr (memory : List UInt8) : memory.take (cstr memory).length = cstr memory :=
  (List.prefix_iff_eq_take.mp (List.takeWhile_prefix _)).symm

/-- The response to a request whose values fit, and the result. -/
theorem Fits.analysis_eq (fits : sent.Fits) (memory : Nat → UInt8) (conf : JsConf)
    (digest : ∀ bytes, (platform.sha1 bytes).length = 20) :
    let analysis := rqAnalyze platform (sent.submit platform memory) conf (strLocal 1024)
    analysis.1.buffer.take analysis.1.length =
        wireLines (sent.answer platform (sent.verdict platform conf)) ∧
      (analysis.2 ≠ 0 ↔ sent.verdict platform conf = .accepted) := by
  intro analysis
  have analysis_eq : analysis =
      decided platform sent (strLocal 1024) (sent.verdict platform conf) :=
    (fits.presents memory conf).rqAnalyze_eq digest (lastOf_length_le fits.key_fits) _
  have short := length_answer_le digest (lastOf_length_le fits.connection_fits)
    (sent.verdict platform conf)
  have plain : 0 ∉ wireLines (sent.answer platform (sent.verdict platform conf)) := by
    intro zero
    obtain ⟨line, line_mem, inside⟩ := List.mem_flatMap.mp zero
    rcases List.mem_append.mp inside with inside | ending
    · exact notMem_answer (by decide) fits.plain _ line line_mem inside
    · exact absurd ending (by decide)
  have holds := (strLocal_sized (by decide : 0 < 1024)).strPrint (by decide)
    (wireLines (sent.answer platform (sent.verdict platform conf)))
  rw [analysis_eq]
  constructor
  · rw [decided, holds.length_eq, take_length_cstr, holds.string_eq, cstr_eq_self plain]
    exact List.take_of_length_le short
  · rw [decided]
    split_ifs with accepted
    · simp [accepted]
    · simp [accepted]

end

end RequestText

/-! ## The exchange -/

section

variable {sent : RequestText}

/-- A request whose bytes arrive in any parts is read whole and decided. -/
theorem run_request (env : Environment) (fits : sent.Fits)
    (whole : ∀ line ∈ sent.requestLine :: sent.headerLines, 10 ∉ line)
    {reads : List (List UInt8 × Bool)} (nonempty : ∀ read ∈ reads, read.1 ≠ [])
    (request : arrived reads = wireLines (sent.requestLine :: sent.headerLines ++ [[]])) :
    Execution.run (connStep env) (wsconnCreate env) (readLabels reads) =
      some (wsconnHandshake env
        { wsconnCreate env with req := sent.submit env.platform env.memory }) := by
  obtain ⟨-, done, clean⟩ := fits.toReadable.records env.platform env.memory
  have plain : ∀ line ∈ sent.requestLine :: sent.headerLines, 0 ∉ line := by
    intro line member
    rcases List.mem_cons.mp member with rfl | header
    · exact fits.requestLine_plain
    · exact fits.plain line header
  have lines_nonempty : ∀ line ∈ sent.requestLine :: sent.headerLines, line ≠ [] := by
    intro line member
    rcases List.mem_cons.mp member with rfl | header
    · intro empty
      have three := fits.three_tokens
      rw [empty] at three
      exact absurd three (by decide)
    · exact fits.nonempty line header
  have outcome : readRequest env ((wsconnCreate env).unread (arrived reads)) =
      wsconnHandshake env
        { wsconnCreate env with req := sent.submit env.platform env.memory } := by
    rw [request]
    exact readRequest_lines plain whole lines_nonempty rfl (List.append_nil _).symm clean done
  have ended : (readRequest env ((wsconnCreate env).unread (arrived reads))).input = [] := by
    rw [outcome, wsconnHandshake_eq]
    split_ifs
    · rfl
    · exact wsconnClose_input _
  rw [← outcome]
  exact @Conn.Untouched.run_reads env (wsconnCreate env) ⟨rfl, rfl, rfl⟩ reads
    (fun _ => env.evbuffer.readln_none [] List.not_mem_nil) nonempty (fun _ => ended)

/-- What is left of a request which was read whole. -/
theorem handshake_outcome (env : Environment)
    (digest : ∀ bytes, (env.platform.sha1 bytes).length = 20) (fits : sent.Fits) :
    let conn := wsconnHandshake env
      { wsconnCreate env with req := sent.submit env.platform env.memory }
    conn.input = [] ∧
      conn.pending =
        wireLines (sent.answer env.platform (sent.verdict env.platform env.conf)) ∧
      conn.wsState =
        if sent.verdict env.platform env.conf = .accepted then .receiving else .closed := by
  obtain ⟨response_eq, accepted_iff⟩ := fits.analysis_eq env.memory env.conf digest
  dsimp only
  rw [wsconnHandshake_eq]
  split_ifs with accepted refused refused
  · exact ⟨rfl, response_eq, rfl⟩
  · exact absurd (accepted_iff.mp accepted) refused
  · exact absurd (accepted_iff.mpr refused) accepted
  · exact ⟨wsconnClose_input _, (wsconnClose_pending _).trans response_eq, wsconnClose_wsState _⟩

/-- A request whose bytes arrive in any parts is answered with the lines which its headers demand,
and the connection is open exactly when the answer accepts it. -/
theorem handshake_exchange (env : Environment)
    (digest : ∀ bytes, (env.platform.sha1 bytes).length = 20) (fits : sent.Fits)
    (whole : ∀ line ∈ sent.requestLine :: sent.headerLines, 10 ∉ line)
    {reads : List (List UInt8 × Bool)} (nonempty : ∀ read ∈ reads, read.1 ≠ [])
    (request : arrived reads = wireLines (sent.requestLine :: sent.headerLines ++ [[]])) :
    ∃ conn, Execution.run (connStep env) (wsconnCreate env) (readLabels reads) = some conn ∧
      conn.input = [] ∧
      conn.pending =
        wireLines (sent.answer env.platform (sent.verdict env.platform env.conf)) ∧
      conn.wsState =
        if sent.verdict env.platform env.conf = .accepted then .receiving else .closed :=
  ⟨_, run_request env fits whole nonempty request, handshake_outcome env digest fits⟩

end

/-- An environment whose digest is that of the key in `RequestText.greeting`. -/
def greetingEnvironment : Environment :=
  { sessionEnvironment with platform := RequestText.greetingPlatform, conf := configCreate }

/-- The greeting in two parts, cut between a CR and its LF. -/
def greetingReads : List (List UInt8 × Bool) :=
  let request := wireLines
    ((RequestText.greeting "Upgrade").requestLine ::
      (RequestText.greeting "Upgrade").headerLines ++ [[]])
  [(request.take 15, false), (request.drop 15, false)]

/-- The greeting is accepted, with the encoded digest of its key. -/
theorem handshake_exchange_greeting :
    ∃ conn, Execution.run (connStep greetingEnvironment) (wsconnCreate greetingEnvironment)
        (readLabels greetingReads) = some conn ∧
      conn.input = [] ∧
      conn.pending = wireLines
        ((RequestText.greeting "Upgrade").answer RequestText.greetingPlatform .accepted) ∧
      conn.wsState = .receiving := by
  have verdict : (RequestText.greeting "Upgrade").verdict greetingEnvironment.platform
      greetingEnvironment.conf = .accepted := by decide +kernel
  obtain ⟨conn, execution, input, pending, state⟩ :=
    @handshake_exchange (RequestText.greeting "Upgrade") greetingEnvironment (fun _ => rfl)
      (by decide +kernel) (by decide +kernel) greetingReads (by decide +kernel)
      (by decide +kernel)
  rw [verdict] at pending state
  exact ⟨conn, execution, input, pending, state⟩

end Jabsocket
