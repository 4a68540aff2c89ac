import Jabsocket.Client
import Jabsocket.Folding

/-!
# The handshake with the test client

`sendHandshakeRequest` writes a request from its parameters, the server answers it, and
`recvHandshakeResponse` reads the answer.  However the network cuts both texts, the client is
welcomed exactly when the values which it sends meet the conditions of the server.
-/

namespace Jabsocket

/-! ## `sendHandshakeRequest` -/

/-- The parameters of `sendHandshakeRequest`. -/
structure HandshakeParams where
  resource : Option (List UInt8)
  protocol : Option (List UInt8)
  host : Option (List UInt8)
  key : Option (List UInt8)
  subprotocol : Option (List UInt8)
  version : Option (List UInt8)
  origin : Option (List UInt8)
  deriving DecidableEq, Repr

/-- The values which `sendHandshakeRequest` writes. -/
structure Offer where
  resource : List UInt8
  protocol : List UInt8
  host : List UInt8
  key : List UInt8
  subprotocol : List UInt8
  version : List UInt8
  origin : List UInt8
  deriving DecidableEq, Repr

/-- `base64.encodestring` of a string which needs one line. -/
def encodestring (string : List UInt8) : List UInt8 :=
  Rfc4648.encode string ++ [10]

/-- The parameters, or their defaults.  `random` is what `randString` returns.  The last byte of the
key is removed, also when the key is a parameter. -/
def HandshakeParams.offer (params : HandshakeParams) (random : List UInt8) : Option Offer :=
  match params.host, params.subprotocol with
  | some host, some subprotocol =>
      some
        { resource := params.resource.getD (text "/")
          protocol := params.protocol.getD (text "HTTP/1.1")
          host
          key := (params.key.getD (encodestring random)).dropLast
          subprotocol
          version := params.version.getD (text "13")
          origin := params.origin.getD (text "http://" ++ host) }
  | _, _ => none

/-- The request which is written. -/
def Offer.bytes (offer : Offer) : List UInt8 :=
  text "GET " ++ offer.resource ++ text " " ++ offer.protocol ++ crlf ++
    (text "Host: " ++ offer.host ++ crlf) ++
    (text "Upgrade: websocket" ++ crlf) ++
    (text "Connection: Upgrade" ++ crlf) ++
    (text "Sec-WebSocket-Key: " ++ offer.key ++ crlf) ++
    (text "Sec-WebSocket-Protocol: " ++ offer.subprotocol ++ crlf) ++
    (text "Sec-WebSocket-Version: " ++ offer.version ++ crlf) ++
    (text "Origin: " ++ offer.origin ++ crlf ++ crlf)

/-- `sendHandshakeRequest`: what it sends, unless a required parameter is missing. -/
def sendHandshakeRequest (params : HandshakeParams) (random : List UInt8) : Option (List UInt8) :=
  (params.offer random).map Offer.bytes

/-! ## The request as text -/

/-- The names of the headers. -/
def headerNames : List (List UInt8) :=
  [text "Host", text "Upgrade", text "Connection", text "Sec-WebSocket-Key",
    text "Sec-WebSocket-Protocol", text "Sec-WebSocket-Version", text "Origin"]

/-- A header line with a space behind the colon. -/
def headerLine (name value : List UInt8) : List UInt8 :=
  name ++ 58 :: 32 :: value

namespace Offer

/-- The values of the headers. -/
def headerValues (offer : Offer) : List (List UInt8) :=
  [offer.host, text "websocket", text "Upgrade", offer.key, offer.subprotocol, offer.version,
    offer.origin]

/-- The lines of the request. -/
def requestText (offer : Offer) : RequestText :=
  { requestLine := text "GET " ++ offer.resource ++ text " " ++ offer.protocol
    headerLines := List.zipWith headerLine headerNames offer.headerValues }

/-- The names as they are written, with a colon and a space. -/
theorem headerNames_written :
    text "Host: " = headerLine (text "Host") [] ∧
      text "Upgrade: websocket" = headerLine (text "Upgrade") (text "websocket") ∧
      text "Connection: Upgrade" = headerLine (text "Connection") (text "Upgrade") ∧
      text "Sec-WebSocket-Key: " = headerLine (text "Sec-WebSocket-Key") [] ∧
      text "Sec-WebSocket-Protocol: " = headerLine (text "Sec-WebSocket-Protocol") [] ∧
      text "Sec-WebSocket-Version: " = headerLine (text "Sec-WebSocket-Version") [] ∧
      text "Origin: " = headerLine (text "Origin") [] := by
  decide +kernel

theorem headerLine_append (name value : List UInt8) :
    headerLine name [] ++ value = headerLine name value := by
  rw [headerLine, List.append_assoc]
  rfl

theorem bytes_eq (offer : Offer) :
    offer.bytes =
      wireLines (offer.requestText.requestLine :: offer.requestText.headerLines ++ [[]]) := by
  obtain ⟨host, upgrade, connection, key, subprotocol, version, origin⟩ := headerNames_written
  rw [bytes, host, upgrade, connection, key, subprotocol, version, origin]
  simp only [headerLine_append]
  unfold requestText headerNames headerValues
  generalize text "GET " = get
  generalize text " " = space
  generalize text "Host" = host
  generalize text "Upgrade" = upgrade
  generalize text "Connection" = connection
  generalize text "Sec-WebSocket-Key" = key
  generalize text "Sec-WebSocket-Protocol" = subprotocol
  generalize text "Sec-WebSocket-Version" = version
  generalize text "Origin" = origin
  generalize text "websocket" = websocket
  simp only [wireLines, List.zipWith_cons_cons, List.zipWith_nil_left, List.cons_append,
    List.nil_append, List.flatMap_cons, List.flatMap_nil, List.append_assoc, List.append_nil]

/-! ## What the parser makes of it -/

theorem splitHeader_headerLine {name : List UInt8} (plain : 58 ∉ name) (value : List UInt8) :
    splitHeader (headerLine name value) = { key := name, value := 32 :: value } := by
  have none : ∀ byte ∈ name, (decide (byte ≠ 58)) = true := by
    rintro byte member
    exact decide_eq_true (ne_of_mem_of_not_mem member plain)
  rw [splitHeader, headerLine, List.takeWhile_append_of_pos none,
    List.dropWhile_append_of_pos none]
  simp

/-- The headers with a name, among headers of which it is known whether they have this name. -/
theorem valuesOf_lines {names values : List (List UInt8)} (plain : ∀ name ∈ names, 58 ∉ name)
    (name : List UInt8) {flags : List Bool}
    (flags_eq : names.map (fun key => equalNocase key name) = flags) :
    valuesOf name ((List.zipWith headerLine names values).map splitHeader) =
      ((flags.zip values).filter Prod.fst).map fun entry => trimLeft entry.2 := by
  induction names generalizing values flags with
  | nil =>
      subst flags_eq
      rfl
  | cons key names ih =>
      obtain ⟨first, others⟩ := List.forall_mem_cons.mp plain
      cases values with
      | nil =>
          subst flags_eq
          rfl
      | cons value values =>
          subst flags_eq
          have later := @ih values others _ rfl
          have trimmed : trimLeft (32 :: value) = trimLeft value := rfl
          rw [valuesOf] at later ⊢
          rw [List.zipWith_cons_cons, List.map_cons, splitHeader_headerLine first, List.map_cons,
            List.zip_cons_cons, List.filter_cons, List.filter_cons]
          dsimp only
          cases equalNocase key name with
          | true =>
              rw [if_pos rfl, if_pos rfl, List.map_cons, List.map_cons, later, trimmed]
          | false => rw [if_neg (by decide), if_neg (by decide), later]

theorem headerNames_plain : ∀ name ∈ headerNames, 58 ∉ name := by
  decide +kernel

theorem headerLine_ink : ∀ name ∈ headerNames, ∀ value,
    isspace ((headerLine name value).headD 0) = false := by
  have names : ∀ name ∈ headerNames, name ≠ [] ∧ isspace (name.headD 0) = false := by
    decide +kernel
  intro name member value
  obtain ⟨nonempty, ink⟩ := names name member
  obtain ⟨first, rest, rfl⟩ := List.exists_cons_of_ne_nil nonempty
  exact ink

theorem mem_headerLines {offer : Offer} {line : List UInt8}
    (member : line ∈ offer.requestText.headerLines) :
    ∃ name ∈ headerNames, ∃ value ∈ offer.headerValues, line = headerLine name value := by
  obtain ⟨index, inside, rfl⟩ := List.mem_iff_getElem.mp member
  have bounds := inside
  rw [requestText, List.length_zipWith, Nat.lt_min] at bounds
  exact ⟨_, List.getElem_mem bounds.1, _, List.getElem_mem bounds.2, List.getElem_zipWith ..⟩

theorem logicalLines_eq (offer : Offer) :
    logicalLines offer.requestText.headerLines = offer.requestText.headerLines := by
  have ink : ∀ line ∈ offer.requestText.headerLines, isspace (line.headD 0) = false := by
    intro line member
    obtain ⟨name, named, value, -, rfl⟩ := mem_headerLines member
    exact headerLine_ink name named value
  rw [logicalLines, RequestText.logicalFrom_of_ink ink, List.filter_cons, if_neg (by decide)]
  refine List.filter_eq_self.mpr fun line member => ?_
  obtain ⟨name, -, value, -, rfl⟩ := mem_headerLines member
  simp [headerLine]

/-- The parser reads every value without its leading whitespace. -/
theorem values_eq (offer : Offer) :
    offer.requestText.values =
      { host := [trimLeft offer.host]
        upgrade := [text "websocket"]
        connection := [text "Upgrade"]
        key := [trimLeft offer.key]
        protocol := [trimLeft offer.subprotocol]
        version := [trimLeft offer.version]
        origin := [trimLeft offer.origin] } := by
  have found : ∀ name flags, headerNames.map (fun key => equalNocase key name) = flags →
      valuesOf name (headersOf offer.requestText.headerLines) =
        ((flags.zip offer.headerValues).filter Prod.fst).map fun entry => trimLeft entry.2 := by
    intro name flags flags_eq
    rw [headersOf, logicalLines_eq]
    exact valuesOf_lines headerNames_plain name flags_eq
  have websocket : trimLeft (text "websocket") = text "websocket" := by decide +kernel
  have upgrade : trimLeft (text "Upgrade") = text "Upgrade" := by decide +kernel
  rw [RequestText.values, fieldValues,
    found (text "host") [true, false, false, false, false, false, false] (by decide +kernel),
    found (text "upgrade") [false, true, false, false, false, false, false] (by decide +kernel),
    found (text "connection") [false, false, true, false, false, false, false] (by decide +kernel),
    found (text "Sec-WebSocket-Key") [false, false, false, true, false, false, false]
      (by decide +kernel),
    found (text "Sec-WebSocket-Protocol") [false, false, false, false, true, false, false]
      (by decide +kernel),
    found (text "Sec-WebSocket-Version") [false, false, false, false, false, true, false]
      (by decide +kernel),
    found (text "Origin") [false, false, false, false, false, false, true] (by decide +kernel),
    headerValues]
  simp only [List.zip_cons_cons, List.zip_nil_right, List.filter_cons, List.filter_nil, if_true,
    if_false, Bool.false_eq_true, List.map_cons, List.map_nil, websocket, upgrade]

/-- Values which need no care: no NUL byte, LF or `%`, a resource and a protocol of one word, and
room in the buffers of the parser. -/
@[mk_iff] structure Sendable (offer : Offer) : Prop where
  plain : ∀ byte ∈ ([0, 10, 37] : List UInt8),
    ∀ value ∈ offer.resource :: offer.protocol :: offer.headerValues, byte ∉ value
  resource_word : offer.resource ≠ [] ∧ ∀ byte ∈ offer.resource, isBlank byte = false
  protocol_word : offer.protocol ≠ [] ∧ ∀ byte ∈ offer.protocol, isBlank byte = false
  resource_fits : offer.resource.length ≤ 255
  host_fits : offer.host.length ≤ 255
  key_fits : offer.key.length ≤ 63
  subprotocol_fits : offer.subprotocol.length ≤ 63
  tokens_fit : ∀ piece ∈ (trimLeft offer.subprotocol).splitOnP isComma, (trim piece).length ≤ 15
  version_fits : offer.version.length ≤ 31
  origin_fits : offer.origin.length ≤ 255

/-- The bytes of a value are looked at one after the other. -/
instance (offer : Offer) : Decidable offer.Sendable :=
  letI : ∀ (value : List UInt8) (kind : UInt8 → Prop) [DecidablePred kind],
      Decidable (∀ byte ∈ value, kind byte) :=
    fun value kind _ => List.decidableBAll kind value
  decidable_of_iff _ (sendable_iff offer).symm

theorem Sendable.tokens_requestLine {offer : Offer} (sendable : offer.Sendable) :
    tokens isBlank offer.requestText.requestLine =
      [text "GET", offer.resource, offer.protocol] := by
  have line_eq : offer.requestText.requestLine =
      text "GET" ++ 32 :: (offer.resource ++ 32 :: offer.protocol) := by
    have get : text "GET " = text "GET" ++ [32] := by decide +kernel
    have space : text " " = [32] := by decide +kernel
    rw [requestText, get, space]
    simp only [List.append_assoc, List.cons_append, List.nil_append]
  have get_word : ∀ byte ∈ text "GET", isBlank byte = false := by decide +kernel
  have get_nonempty : text "GET" ≠ [] := by decide +kernel
  rw [line_eq, tokens_eq_filter_splitOnP,
    List.splitOnP_append_cons_of_forall_mem get_word 32 rfl,
    List.splitOnP_append_cons_of_forall_mem sendable.resource_word.2 32 rfl,
    List.splitOnP_eq_singleton sendable.protocol_word.2]
  simp [get_nonempty, sendable.resource_word.1, sendable.protocol_word.1]

theorem Sendable.notMem_headerLine {offer : Offer} (sendable : offer.Sendable) {byte : UInt8}
    (special : byte ∈ ([0, 10, 37] : List UInt8)) {line : List UInt8}
    (member : line ∈ offer.requestText.headerLines) : byte ∉ line := by
  have names : ∀ byte ∈ ([0, 10, 37] : List UInt8), byte ≠ 58 ∧ byte ≠ 32 ∧
      ∀ name ∈ headerNames, byte ∉ name := by
    decide +kernel
  obtain ⟨not_colon, not_space, not_name⟩ := names byte special
  obtain ⟨name, named, value, valued, rfl⟩ := mem_headerLines member
  rw [headerLine, List.mem_append, List.mem_cons, List.mem_cons, not_or, not_or, not_or]
  exact ⟨not_name name named, not_colon, not_space,
    sendable.plain byte special value (by simp [valued])⟩

theorem Sendable.notMem_requestLine {offer : Offer} (sendable : offer.Sendable) {byte : UInt8}
    (special : byte ∈ ([0, 10, 37] : List UInt8)) : byte ∉ offer.requestText.requestLine := by
  have words : ∀ byte ∈ ([0, 10, 37] : List UInt8), byte ∉ text "GET " ∧ byte ∉ text " " := by
    decide +kernel
  obtain ⟨not_get, not_space⟩ := words byte special
  rw [requestText]
  simp only [List.mem_append, not_or]
  exact ⟨⟨⟨not_get, sendable.plain byte special _ (by simp)⟩, not_space⟩,
    sendable.plain byte special _ (by simp)⟩

theorem Sendable.length_headerLine {offer : Offer} (sendable : offer.Sendable) {line : List UInt8}
    (member : line ∈ offer.requestText.headerLines) : line.length < 4095 := by
  have names : ∀ name ∈ headerNames, name.length ≤ 30 := by decide +kernel
  have values : ∀ value ∈ offer.headerValues, value.length ≤ 255 := by
    have websocket : (text "websocket").length ≤ 255 := by decide +kernel
    have upgrade : (text "Upgrade").length ≤ 255 := by decide +kernel
    have key := sendable.key_fits
    have subprotocol := sendable.subprotocol_fits
    have version := sendable.version_fits
    simp only [headerValues, List.mem_cons, List.not_mem_nil, or_false, forall_eq_or_imp, forall_eq]
    exact ⟨sendable.host_fits, websocket, upgrade, by omega, by omega, by omega,
      sendable.origin_fits⟩
  obtain ⟨name, named, value, valued, rfl⟩ := mem_headerLines member
  have name_short := names name named
  have value_short := values value valued
  rw [headerLine, List.length_append, List.length_cons, List.length_cons]
  omega

theorem length_trimLeft_le (string : List UInt8) : (trimLeft string).length ≤ string.length :=
  (List.dropWhile_sublist _).length_le

/-- The values fit into the buffers of the parser. -/
theorem Sendable.fits {offer : Offer} (sendable : offer.Sendable) : offer.requestText.Fits := by
  have tokens_eq := sendable.tokens_requestLine
  have values := offer.values_eq
  have shorter : ∀ {string : List UInt8} {bound : Nat}, string.length ≤ bound →
      (trimLeft string).length ≤ bound :=
    fun short => Nat.le_trans (length_trimLeft_le _) short
  have websocket : (text "websocket").length ≤ 63 := by decide +kernel
  have upgrade : (text "Upgrade").length ≤ 63 ∧
      ∀ piece ∈ (text "Upgrade").splitOnP isComma, (trim piece).length ≤ 15 := by
    decide +kernel
  exact
    { three_tokens := by rw [tokens_eq]; exact Nat.le_refl 3
      nonempty := by
        intro line member
        obtain ⟨name, -, value, -, rfl⟩ := mem_headerLines member
        simp [headerLine]
      plain := fun line member => sendable.notMem_headerLine (by decide) member
      colon := by
        rw [logicalLines_eq]
        intro line member
        obtain ⟨name, -, value, -, rfl⟩ := mem_headerLines member
        simp [headerLine]
      short := by
        rw [logicalLines_eq]
        exact fun line member => sendable.length_headerLine member
      literal := by
        rw [logicalLines_eq]
        exact fun line member => sendable.notMem_headerLine (by decide) member
      requestLine_plain := sendable.notMem_requestLine (by decide)
      requestLine_literal := sendable.notMem_requestLine (by decide)
      method_fits := by
        have get : (text "GET").length ≤ 15 := by decide +kernel
        rw [RequestText.method, tokens_eq]
        exact get
      resource_fits := by
        rw [RequestText.resource, tokens_eq]
        exact sendable.resource_fits
      host_fits := by
        rw [values]
        simpa using shorter sendable.host_fits
      upgrade_fits := by
        rw [values]
        simpa using websocket
      connection_fits := by
        rw [values]
        simpa using upgrade.1
      connection_tokens_fit := by
        rw [values]
        simpa using upgrade.2
      key_fits := by
        rw [values]
        simpa using shorter sendable.key_fits
      protocol_fits := by
        rw [values]
        simpa using shorter sendable.subprotocol_fits
      protocol_tokens_fit := by
        rw [values]
        simpa using sendable.tokens_fit
      version_fits := by
        rw [values]
        simpa using shorter sendable.version_fits
      origin_fits := by
        rw [values]
        simpa using shorter sendable.origin_fits }

/-! ## The decision -/

/-- The conditions of the server on the values which the client sends. -/
@[mk_iff] structure Welcome (platform : Platform) (conf : JsConf) (offer : Offer) : Prop where
  origin : conf.originList = [] ∨ ∃ pattern ∈ conf.originList,
    platform.fnmatch pattern ((trimLeft offer.origin).map tolower) = true
  subprotocol : ∃ piece ∈ (trimLeft offer.subprotocol).splitOnP isComma, trim piece = text "xmpp"
  key : trimLeft offer.key ≠ []
  host : ∀ host ∈ conf.host, host = trimLeft offer.host
  resource : ∀ resource ∈ conf.resource, equalNocase offer.resource resource = true
  version : trimLeft offer.version = text "13"

instance (platform : Platform) (conf : JsConf) (offer : Offer) :
    Decidable (offer.Welcome platform conf) :=
  decidable_of_iff _ (welcome_iff platform conf offer).symm

theorem Sendable.verdict_iff {offer : Offer} (sendable : offer.Sendable) (platform : Platform)
    (conf : JsConf) :
    offer.requestText.verdict platform conf = .accepted ↔ offer.Welcome platform conf := by
  have values := offer.values_eq
  have method : equalNocase offer.requestText.method (text "GET") = true := by
    have get : equalNocase (text "GET") (text "GET") = true := by decide +kernel
    rw [RequestText.method, sendable.tokens_requestLine]
    exact get
  have resource : offer.requestText.resource = offer.resource := by
    rw [RequestText.resource, sendable.tokens_requestLine]
    rfl
  have connection : offer.requestText.UpgradeFound platform := by
    have asked : ∃ piece ∈ (text "Upgrade").splitOnP isComma,
        equalNocase (trim piece) (text "Upgrade") = true := by
      decide +kernel
    refine Or.inl ?_
    rw [RequestText.AsksForUpgrade, values]
    exact ⟨_, List.mem_singleton_self _, asked⟩
  have upgrade : equalNocase (text "websocket") (text "websocket") = true := by decide +kernel
  have well : offer.requestText.WellAsked platform conf ↔
      (∃ piece ∈ (trimLeft offer.subprotocol).splitOnP isComma, trim piece = text "xmpp") ∧
        trimLeft offer.key ≠ [] ∧ ∀ host ∈ conf.host, host = trimLeft offer.host := by
    rw [RequestText.wellAsked_iff, RequestText.OffersXmpp, RequestText.Lists, values]
    simp [lastOf, connection, upgrade]
  have origin : offer.requestText.OriginAllowed platform conf ↔ conf.originList = [] ∨
      ∃ pattern ∈ conf.originList,
        platform.fnmatch pattern ((trimLeft offer.origin).map tolower) = true := by
    rw [RequestText.OriginAllowed, values]
    rfl
  have version : lastOf offer.requestText.values.version = trimLeft offer.version := by
    rw [values]
    rfl
  rw [RequestText.verdict, if_neg (by rw [method]; decide), resource, version, welcome_iff]
  by_cases allowed : offer.requestText.OriginAllowed platform conf
  · rw [if_neg (not_not.mpr allowed)]
    by_cases asked : offer.requestText.WellAsked platform conf
    · rw [if_neg (not_not.mpr asked)]
      obtain ⟨subprotocol, key, host⟩ := well.mp asked
      simp only [origin.mp allowed, subprotocol, key, ne_eq, not_false_eq_true, true_and]
      split_ifs with missing other <;> simp_all
    · rw [if_pos asked]
      simp only [reduceCtorEq, false_iff]
      rintro ⟨-, subprotocol, key, host, -⟩
      exact asked (well.mpr ⟨subprotocol, key, host⟩)
  · rw [if_pos allowed]
    simp only [reduceCtorEq, false_iff]
    rintro ⟨fine, -⟩
    exact allowed (origin.mpr fine)

/-- The lines which welcome a client. -/
def welcomeLines (platform : Platform) (offer : Offer) : List (List UInt8) :=
  [text "HTTP/1.1 101 Switching Protocols", text "Upgrade: websocket", text "Connection: Upgrade",
    text "Sec-WebSocket-Accept: " ++
      Rfc4648.encode (platform.sha1 (trimLeft offer.key ++ magicString)),
    text "Sec-WebSocket-Protocol: xmpp", []]

theorem answer_accepted (offer : Offer) (platform : Platform) :
    offer.requestText.answer platform .accepted = offer.welcomeLines platform := by
  have connection : text "Connection: " ++ text "Upgrade" = text "Connection: Upgrade" := by
    decide +kernel
  rw [RequestText.answer, RequestText.acceptValue, values_eq, welcomeLines, ← connection]
  rfl

end Offer

theorem RequestText.switching_mem_answer_iff (sent : RequestText) (platform : Platform)
    (verdict : Verdict) :
    text "HTTP/1.1 101 Switching Protocols" ∈ sent.answer platform verdict ↔
      verdict = .accepted := by
  cases verdict with
  | accepted => exact iff_of_true List.mem_cons_self rfl
  | methodNotAllowed => exact iff_of_false (by rw [answer]; decide +kernel) (by decide)
  | forbidden => exact iff_of_false (by rw [answer]; decide +kernel) (by decide)
  | badRequest => exact iff_of_false (by rw [answer]; decide +kernel) (by decide)
  | notFound => exact iff_of_false (by rw [answer]; decide +kernel) (by decide)
  | upgradeRequired => exact iff_of_false (by rw [answer]; decide +kernel) (by decide)

/-! ## Both sides of the handshake -/

/-- The client is welcomed, and the connection is open, exactly when the values which it sends meet
the conditions of the server; otherwise the connection is closed.  Neither the cuts of the request
nor those of the answer matter. -/
theorem client_welcomed_iff (env : Environment)
    (digest : ∀ bytes, (env.platform.sha1 bytes).length = 20) {params : HandshakeParams}
    {random : List UInt8} {offer : Offer} (offers : params.offer random = some offer)
    (sendable : offer.Sendable) {reads : List (List UInt8 × Bool)}
    (nonempty : ∀ read ∈ reads, read.1 ≠ [])
    (sends : sendHandshakeRequest params random = some (arrived reads)) :
    ∃ conn, Execution.run (connStep env) (wsconnCreate env) (readLabels reads) = some conn ∧
      conn.wsState =
        (if offer.Welcome env.platform env.conf then .receiving else .closed) ∧
      ∀ incoming : List (List UInt8), (∀ chunk ∈ incoming, chunk ≠ []) →
        incoming.flatten = conn.pending →
        ∃ lines, recvHandshakeResponse 6 { buffer := [], incoming } =
            .returned lines { buffer := [], incoming := [] } ∧
          (text "HTTP/1.1 101 Switching Protocols" ∈ lines ↔
            offer.Welcome env.platform env.conf) ∧
          (offer.Welcome env.platform env.conf → lines = offer.welcomeLines env.platform) := by
  have request : arrived reads =
      wireLines (offer.requestText.requestLine :: offer.requestText.headerLines ++ [[]]) := by
    rw [sendHandshakeRequest, offers] at sends
    rw [← offer.bytes_eq]
    exact (Option.some.inj sends).symm
  have whole : ∀ line ∈ offer.requestText.requestLine :: offer.requestText.headerLines,
      10 ∉ line := by
    intro line member
    rcases List.mem_cons.mp member with rfl | header
    · exact sendable.notMem_requestLine (by decide)
    · exact sendable.notMem_headerLine (by decide) header
  have fits := sendable.fits
  have verdict_iff := sendable.verdict_iff env.platform env.conf
  obtain ⟨-, pending_eq, state_eq⟩ := handshake_outcome env digest fits
  refine ⟨_, run_request env fits whole nonempty request, ?_, ?_⟩
  · simp only [state_eq, ← verdict_iff]
  · intro incoming alive received
    rw [pending_eq] at received
    generalize offer.requestText.verdict env.platform env.conf = verdict at received verdict_iff
    obtain ⟨answered, answer_eq, few, filled⟩ :=
      offer.requestText.answer_lines env.platform verdict
    have single : ∀ line ∈ answered, 10 ∉ line := by
      intro line member
      refine @RequestText.notMem_answer env.platform offer.requestText 10 (by decide)
        (fun header member => whole header (List.mem_cons_of_mem _ member)) verdict line ?_
      rw [answer_eq]
      exact List.mem_append_left _ member
    obtain ⟨client, returned, unused_eq, alive'⟩ := @recvLines_response answered filled single []
      { buffer := [], incoming } alive [] (by rw [Client.unused, received, answer_eq]; simp) 6 few
    rw [List.nil_append, client.eq_empty alive' unused_eq, ← answer_eq] at returned
    refine ⟨_, returned, ?_, fun welcome => ?_⟩
    · rw [RequestText.switching_mem_answer_iff, verdict_iff]
    · rw [verdict_iff.mpr welcome, Offer.answer_accepted]

/-- A server for one origin. -/
def originEnvironment : Environment :=
  { greetingEnvironment with
    conf := { configCreate with originList := [text "http://localhost"] } }

/-- The parameters which a test has to give. -/
def testParams : HandshakeParams :=
  { resource := none, protocol := none, host := some (text "localhost"), key := none
    subprotocol := some (text "chat, xmpp"), version := none, origin := none }

/-- The offer with a random key. -/
def testOffer : Offer :=
  { resource := text "/", protocol := text "HTTP/1.1", host := text "localhost"
    key := text "AQIDBAUGBwg=", subprotocol := text "chat, xmpp", version := text "13"
    origin := text "http://localhost" }

/-- The request in two parts. -/
def testReads : List (List UInt8 × Bool) :=
  [(testOffer.bytes.take 30, false), (testOffer.bytes.drop 30, false)]

/-- The test is welcomed, also when the answer is cut behind its fifth byte. -/
theorem client_welcomed_iff_test :
    ∃ conn, Execution.run (connStep originEnvironment) (wsconnCreate originEnvironment)
        (readLabels testReads) = some conn ∧
      conn.wsState = .receiving ∧
      recvHandshakeResponse 6
          { buffer := [], incoming := [conn.pending.take 5, conn.pending.drop 5] } =
        .returned (testOffer.welcomeLines RequestText.greetingPlatform)
          { buffer := [], incoming := [] } := by
  have welcome : testOffer.Welcome originEnvironment.platform originEnvironment.conf := by
    decide +kernel
  obtain ⟨conn, execution, state, answered⟩ :=
    @client_welcomed_iff originEnvironment (fun _ => rfl) testParams [1, 2, 3, 4, 5, 6, 7, 8]
      testOffer (by decide +kernel) (by decide +kernel) testReads (by decide +kernel)
      (by decide +kernel)
  obtain ⟨other, execution', alive⟩ :
      ∃ conn, Execution.run (connStep originEnvironment) (wsconnCreate originEnvironment)
          (readLabels testReads) = some conn ∧
        ∀ chunk ∈ [conn.pending.take 5, conn.pending.drop 5], chunk ≠ [] := by
    decide +kernel
  obtain rfl := Option.some.inj (execution.symm.trans execution')
  obtain ⟨lines, returned, -, lines_eq⟩ := answered _ alive (by simp)
  rw [lines_eq welcome] at returned
  exact ⟨conn, execution, state.trans (if_pos welcome), returned⟩

end Jabsocket
