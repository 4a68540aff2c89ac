import Jabsocket.Headers

/-!
# The handshake decision

`rq_analyze` decides on the values which fit into the buffers of the request.  When every value
fits, the decision is the one which the headers call for, except that the outcome of the search for
the `Upgrade` token is not defined when the search fails.
-/

namespace Jabsocket

/-- A check which refuses the request, followed by the other checks. -/
theorem refused_unless {check : Prop} [Decidable check] {refused : Str} {next : Str × Int} :
    (if check then (refused, 0) else next).2 = 1 ↔ ¬ check ∧ next.2 = 1 := by
  split <;> simp_all

/-- The checks of `rq_analyze` on a parsed request. -/
theorem rqAnalyze_eq_one_iff (platform : Platform) (request : Request) (conf : JsConf)
    (response : Str) :
    (rqAnalyze platform request conf response).2 = 1 ↔
      strIsEqualNocase request.methodStr (text "GET") = true ∧
        configCheckOrigin platform conf (cstr request.originStr.buffer) = true ∧
        rqProtocolsContains request (text "xmpp") = true ∧
        cstr request.wsKeyStr.buffer ≠ [] ∧
        (∀ host ∈ conf.host, host = cstr request.hostStr.buffer) ∧
        request.flUpgradeFound = true ∧
        request.flConnectionFound = true ∧
        (∀ resource ∈ conf.resource, strIsEqualNocase request.resourceStr resource = true) ∧
        cstr request.wsVersionStr.buffer = text "13" := by
  have host_iff : ¬ (conf.host.any fun host => host != cstr request.hostStr.buffer) = true ↔
      ∀ host ∈ conf.host, host = cstr request.hostStr.buffer := by
    cases conf.host <;> simp
  have resource_iff :
      ¬ (conf.resource.any fun resource => !strIsEqualNocase request.resourceStr resource) = true ↔
        ∀ resource ∈ conf.resource, strIsEqualNocase request.resourceStr resource = true := by
    cases conf.resource <;> simp
  simp only [rqAnalyze, refused_unless, host_iff, resource_iff, Bool.not_eq_true',
    Bool.not_eq_false, ne_eq, not_not, and_true]

namespace RequestText

/-- The checks of `rq_analyze` on the text which was sent, each on the part of a value which the
request stores. -/
structure StoredAccept (platform : Platform) (conf : JsConf) (sent : RequestText) : Prop where
  method : equalNocase ((printed platform sent.method).take 15) (text "GET") = true
  origin :
    configCheckOrigin platform conf (((lastOf sent.values.origin).map tolower).take 255) = true
  protocol : ∃ value ∈ sent.values.protocol, text "xmpp" ∈ protocolNames value
  key : (lastOf sent.values.key).take 63 ≠ []
  host : ∀ host ∈ conf.host, host = (lastOf sent.values.host).take 255
  upgrade : ∃ value ∈ sent.values.upgrade, equalNocase (value.take 63) (text "websocket") = true
  connection : ∃ value ∈ sent.values.connection,
    hasUpgradeToken value = true ∨ platform.missingReturn (value.take 63) ≠ 0
  resource : ∀ resource ∈ conf.resource,
    equalNocase ((printed platform sent.resource).take 255) resource = true
  version : (lastOf sent.values.version).take 31 = text "13"

theorem Readable.accepts_iff {sent : RequestText} (readable : sent.Readable) (platform : Platform)
    (memory : Nat → UInt8) (conf : JsConf) (response : Str) :
    (rqAnalyze platform (sent.submit platform memory) conf response).2 = 1 ↔
      sent.StoredAccept platform conf := by
  obtain ⟨records, -, -⟩ := readable.records platform memory
  have protocols : rqProtocolsContains (sent.submit platform memory) (text "xmpp") = true ↔
      ∃ value ∈ sent.values.protocol, text "xmpp" ∈ protocolNames value := by
    have member := congrArg (text "xmpp" ∈ ·) records.protocols_eq
    simp only [List.mem_map, List.mem_reverse, List.mem_flatMap] at member
    rw [← member]
    simp [rqProtocolsContains]
  rw [rqAnalyze_eq_one_iff, protocols, strIsEqualNocase, records.method_holds.string_eq,
    records.origin_holds.string_eq, records.key_holds.string_eq, records.host_holds.string_eq,
    records.upgrade_found, records.connection_found, records.version_holds.string_eq]
  simp only [strIsEqualNocase, records.resource_holds.string_eq, List.any_eq_true,
    Bool.or_eq_true, decide_eq_true_eq]
  constructor
  · rintro ⟨method, origin, protocol, key, host, upgrade, connection, resource, version⟩
    exact ⟨method, origin, protocol, key, host, upgrade, connection, resource, version⟩
  · rintro ⟨method, origin, protocol, key, host, upgrade, connection, resource, version⟩
    exact ⟨method, origin, protocol, key, host, upgrade, connection, resource, version⟩

/-- Some value has a comma-separated piece which is `name` once trimmed. -/
def Lists (values : List (List UInt8)) (isName : List UInt8 → Bool) : Prop :=
  ∃ value ∈ values, ∃ piece ∈ value.splitOnP isComma, isName (trim piece) = true

instance (values : List (List UInt8)) (isName : List UInt8 → Bool) :
    Decidable (Lists values isName) :=
  inferInstanceAs
    (Decidable (∃ value ∈ values, ∃ piece ∈ value.splitOnP isComma, isName (trim piece) = true))

/-- A Connection header names `Upgrade`. -/
def AsksForUpgrade (sent : RequestText) : Prop :=
  Lists sent.values.connection fun token => equalNocase token (text "Upgrade")

instance (sent : RequestText) : Decidable sent.AsksForUpgrade :=
  inferInstanceAs (Decidable (Lists _ _))

/-- A Sec-WebSocket-Protocol header offers `xmpp`. -/
def OffersXmpp (sent : RequestText) : Prop :=
  Lists sent.values.protocol fun token => token == text "xmpp"

instance (sent : RequestText) : Decidable sent.OffersXmpp :=
  inferInstanceAs (Decidable (Lists _ _))

/-- All that is asked of a request, apart from its Connection headers. -/
@[mk_iff] structure Acceptable (fnmatch : List UInt8 → List UInt8 → Bool) (conf : JsConf)
    (sent : RequestText) : Prop where
  method : equalNocase sent.method (text "GET") = true
  origin : conf.originList = [] ∨
    ∃ pattern ∈ conf.originList, fnmatch pattern ((lastOf sent.values.origin).map tolower) = true
  protocol : sent.OffersXmpp
  key : lastOf sent.values.key ≠ []
  host : ∀ host ∈ conf.host, host = lastOf sent.values.host
  upgrade : ∃ value ∈ sent.values.upgrade, equalNocase value (text "websocket") = true
  resource : ∀ resource ∈ conf.resource, equalNocase sent.resource resource = true
  version : lastOf sent.values.version = text "13"

/-- Every value fits into the buffer which stores it. -/
@[mk_iff] structure Fits (sent : RequestText) : Prop extends sent.Readable where
  requestLine_plain : 0 ∉ sent.requestLine
  requestLine_literal : 37 ∉ sent.requestLine
  method_fits : sent.method.length ≤ 15
  resource_fits : sent.resource.length ≤ 255
  host_fits : ∀ value ∈ sent.values.host, value.length ≤ 255
  upgrade_fits : ∀ value ∈ sent.values.upgrade, value.length ≤ 63
  connection_fits : ∀ value ∈ sent.values.connection, value.length ≤ 63
  connection_tokens_fit : ∀ value ∈ sent.values.connection,
    ∀ piece ∈ value.splitOnP isComma, (trim piece).length ≤ 15
  key_fits : ∀ value ∈ sent.values.key, value.length ≤ 63
  protocol_fits : ∀ value ∈ sent.values.protocol, value.length ≤ 63
  protocol_tokens_fit : ∀ value ∈ sent.values.protocol,
    ∀ piece ∈ value.splitOnP isComma, (trim piece).length ≤ 15
  version_fits : ∀ value ∈ sent.values.version, value.length ≤ 31
  origin_fits : ∀ value ∈ sent.values.origin, value.length ≤ 255

instance (fnmatch : List UInt8 → List UInt8 → Bool) (conf : JsConf) (sent : RequestText) :
    Decidable (sent.Acceptable fnmatch conf) :=
  decidable_of_iff _ (acceptable_iff fnmatch conf sent).symm

instance (sent : RequestText) : Decidable sent.Fits :=
  decidable_of_iff _ (fits_iff sent).symm

theorem lastOf_length_le {values : List (List UInt8)} {bound : Nat}
    (fits : ∀ value ∈ values, value.length ≤ bound) : (lastOf values).length ≤ bound := by
  cases found : values.getLast? with
  | none => simp [lastOf, found]
  | some value => simpa [lastOf, found] using fits value (List.mem_of_getLast? found)

theorem mem_tokens_iff {string token : List UInt8} :
    token ∈ tokens isComma string ↔ token ∈ string.splitOnP isComma ∧ token ≠ [] := by
  rw [tokens_eq_filter_splitOnP, List.mem_filter, decide_eq_true_eq]

/-- Taking the tokens of a stored value which fits is splitting the value at its commas. -/
theorem exists_token_iff {value : List UInt8} (isName : List UInt8 → Bool)
    (fits : value.length ≤ 63) (tokens_fit : ∀ piece ∈ value.splitOnP isComma,
      (trim piece).length ≤ 15) (named : isName [] = false) :
    (∃ token ∈ tokens isComma (value.take 63), isName ((trim token).take 15) = true) ↔
      ∃ piece ∈ value.splitOnP isComma, isName (trim piece) = true := by
  rw [List.take_of_length_le fits]
  constructor
  · rintro ⟨token, member, found⟩
    obtain ⟨member, -⟩ := mem_tokens_iff.mp member
    rw [List.take_of_length_le (tokens_fit token member)] at found
    exact ⟨token, member, found⟩
  · rintro ⟨piece, member, found⟩
    have nonempty : piece ≠ [] := by
      rintro rfl
      rw [show trim [] = [] from rfl, named] at found
      cases found
    refine ⟨piece, mem_tokens_iff.mpr ⟨member, nonempty⟩, ?_⟩
    rwa [List.take_of_length_le (tokens_fit piece member)]

theorem mem_of_mem_getD_tokens {line : List UInt8} {index : Nat} {byte : UInt8}
    (member : byte ∈ (tokens isBlank line).getD index []) : byte ∈ line := by
  rw [List.getD_eq_getElem?_getD] at member
  cases found : (tokens isBlank line)[index]? with
  | none => simp [found] at member
  | some token =>
      rw [found, Option.getD_some] at member
      exact mem_of_mem_tokens (List.mem_of_getElem? found) member

theorem printed_eq_self (platform : Platform) {token : List UInt8} (plain : 0 ∉ token)
    (literal : 37 ∉ token) : printed platform token = token := by
  rw [printed, formatOutput_of_plain literal, cstr_eq_self plain]

theorem Fits.printed_method {sent : RequestText} (fits : sent.Fits) (platform : Platform) :
    printed platform sent.method = sent.method :=
  printed_eq_self platform (fun zero => fits.requestLine_plain (mem_of_mem_getD_tokens zero))
    (fun percent => fits.requestLine_literal (mem_of_mem_getD_tokens percent))

theorem Fits.printed_resource {sent : RequestText} (fits : sent.Fits) (platform : Platform) :
    printed platform sent.resource = sent.resource :=
  printed_eq_self platform (fun zero => fits.requestLine_plain (mem_of_mem_getD_tokens zero))
    (fun percent => fits.requestLine_literal (mem_of_mem_getD_tokens percent))

theorem Fits.hasUpgradeToken_iff {sent : RequestText} (fits : sent.Fits) {value : List UInt8}
    (member : value ∈ sent.values.connection) :
    hasUpgradeToken value = true ↔
      ∃ piece ∈ value.splitOnP isComma, equalNocase (trim piece) (text "Upgrade") = true := by
  rw [hasUpgradeToken, List.any_eq_true]
  exact exists_token_iff (fun token => equalNocase token (text "Upgrade"))
    (fits.connection_fits value member) (fits.connection_tokens_fit value member) (by decide)

theorem Fits.offersXmpp_iff {sent : RequestText} (fits : sent.Fits) :
    (∃ value ∈ sent.values.protocol, text "xmpp" ∈ protocolNames value) ↔ sent.OffersXmpp := by
  refine exists_congr fun value => and_congr_right fun member => ?_
  rw [← exists_token_iff (fun token => token == text "xmpp")
    (fits.protocol_fits value member) (fits.protocol_tokens_fit value member) (by decide)]
  simp [protocolNames]

/-- When every value fits, only the search for the `Upgrade` token can go wrong. -/
theorem Fits.storedAccept_iff {sent : RequestText} (fits : sent.Fits) (platform : Platform)
    (conf : JsConf) :
    sent.StoredAccept platform conf ↔ sent.Acceptable platform.fnmatch conf ∧
      (sent.AsksForUpgrade ∨
        ∃ value ∈ sent.values.connection, platform.missingReturn value ≠ 0) := by
  have method_eq : (printed platform sent.method).take 15 = sent.method := by
    rw [fits.printed_method, List.take_of_length_le fits.method_fits]
  have origin_eq : ((lastOf sent.values.origin).map tolower).take 255 =
      (lastOf sent.values.origin).map tolower :=
    List.take_of_length_le (by simpa using lastOf_length_le fits.origin_fits)
  have key_eq := List.take_of_length_le (lastOf_length_le fits.key_fits)
  have host_eq := List.take_of_length_le (lastOf_length_le fits.host_fits)
  have resource_eq : (printed platform sent.resource).take 255 = sent.resource := by
    rw [fits.printed_resource, List.take_of_length_le fits.resource_fits]
  have version_eq := List.take_of_length_le (lastOf_length_le fits.version_fits)
  have upgrade_iff : (∃ value ∈ sent.values.upgrade,
      equalNocase (value.take 63) (text "websocket") = true) ↔
        ∃ value ∈ sent.values.upgrade, equalNocase value (text "websocket") = true :=
    exists_congr fun value => and_congr_right fun member => by
      rw [List.take_of_length_le (fits.upgrade_fits value member)]
  have connection_iff : (∃ value ∈ sent.values.connection,
      hasUpgradeToken value = true ∨ platform.missingReturn (value.take 63) ≠ 0) ↔
        sent.AsksForUpgrade ∨
          ∃ value ∈ sent.values.connection, platform.missingReturn value ≠ 0 := by
    rw [AsksForUpgrade, Lists, ← exists_or]
    refine exists_congr fun value => ?_
    rw [← and_or_left]
    refine and_congr_right fun member => ?_
    rw [fits.hasUpgradeToken_iff member, List.take_of_length_le (fits.connection_fits value member)]
  have origin_iff : configCheckOrigin platform conf ((lastOf sent.values.origin).map tolower) =
      true ↔ conf.originList = [] ∨ ∃ pattern ∈ conf.originList,
        platform.fnmatch pattern ((lastOf sent.values.origin).map tolower) = true := by
    simp [configCheckOrigin]
  constructor
  · rintro ⟨method, origin, protocol, key, host, upgrade, connection, resource, version⟩
    rw [method_eq] at method
    rw [origin_eq, origin_iff] at origin
    rw [key_eq] at key
    rw [host_eq] at host
    rw [resource_eq] at resource
    rw [version_eq] at version
    exact ⟨⟨method, origin, fits.offersXmpp_iff.mp protocol, key, host, upgrade_iff.mp upgrade,
      resource, version⟩, connection_iff.mp connection⟩
  · rintro ⟨⟨method, origin, protocol, key, host, upgrade, resource, version⟩, connection⟩
    refine ⟨?_, ?_, fits.offersXmpp_iff.mpr protocol, ?_, ?_, upgrade_iff.mpr upgrade,
      connection_iff.mpr connection, ?_, ?_⟩
    · rwa [method_eq]
    · rwa [origin_eq, origin_iff]
    · rwa [key_eq]
    · rwa [host_eq]
    · rwa [resource_eq]
    · rwa [version_eq]

/-- `rq_analyze` accepts exactly the requests which meet all conditions, whatever value
`_find_connection_upgrade` has when it ends without `return`. -/
def DecidedExactly (platform : Platform) (memory : Nat → UInt8) (conf : JsConf) (response : Str)
    (sent : RequestText) : Prop :=
  ∀ missing : List UInt8 → Int,
    (rqAnalyze { platform with missingReturn := missing }
      (sent.submit { platform with missingReturn := missing } memory) conf response).2 = 1 ↔
        sent.Acceptable platform.fnmatch conf ∧ sent.AsksForUpgrade

/-- What `rq_analyze` decides when every value fits. -/
theorem Fits.decision {sent : RequestText} (fits : sent.Fits) (platform : Platform)
    (memory : Nat → UInt8) (conf : JsConf) (response : Str) (missing : List UInt8 → Int) :
    (rqAnalyze { platform with missingReturn := missing }
      (sent.submit { platform with missingReturn := missing } memory) conf response).2 = 1 ↔
        sent.Acceptable platform.fnmatch conf ∧
          (sent.AsksForUpgrade ∨ ∃ value ∈ sent.values.connection, missing value ≠ 0) := by
  rw [fits.toReadable.accepts_iff, fits.storedAccept_iff]

/-- The decision is exact unless the only thing missing is the `Upgrade` token in the Connection
headers of the request. -/
theorem decidedExactly_iff {sent : RequestText} (fits : sent.Fits) (platform : Platform)
    (memory : Nat → UInt8) (conf : JsConf) (response : Str) :
    sent.DecidedExactly platform memory conf response ↔
      ¬ (sent.Acceptable platform.fnmatch conf ∧ sent.values.connection ≠ [] ∧
        ¬ sent.AsksForUpgrade) := by
  have decision := fits.decision platform memory conf response
  constructor
  · rintro exact_decision ⟨acceptable, present, absent⟩
    obtain ⟨value, others, values_eq⟩ := List.exists_cons_of_ne_nil present
    have accepted := (decision fun _ => 1).mpr
      ⟨acceptable, Or.inr ⟨value, by simp [values_eq], by decide⟩⟩
    exact absent ((exact_decision fun _ => 1).mp accepted).2
  · intro condition missing
    rw [decision]
    refine and_congr_right fun acceptable => ⟨?_, Or.inl⟩
    rintro (asked | ⟨value, member, -⟩)
    · exact asked
    · by_contra absent
      exact condition ⟨acceptable, List.ne_nil_of_mem member, absent⟩

/-- A request with the given Connection header which meets all other conditions. -/
def greeting (connection : String) : RequestText :=
  { requestLine := text "GET / HTTP/1.1"
    headerLines :=
      [text "Upgrade: websocket", text "Connection: " ++ text connection,
        text "Sec-WebSocket-Key: a", text "Sec-WebSocket-Protocol: xmpp",
        text "Sec-WebSocket-Version: 13"] }

/-- A platform whose digest is the one of the key in `greeting`. -/
def greetingPlatform : Platform :=
  { undefinedFormat := id
    missingReturn := fun _ => 0
    fnmatch := fun pattern string => pattern == string
    sha1 := fun _ =>
      [22, 216, 7, 242, 170, 159, 16, 161, 239, 100, 161, 25, 96, 69, 164, 96, 56, 101, 92, 214] }

/-- A request whose Connection header asks for an upgrade is decided exactly. -/
theorem decidedExactly_upgrade :
    (greeting "Upgrade").Fits ∧
      (greeting "Upgrade").DecidedExactly greetingPlatform (fun _ => 0) configCreate
        (strLocal 1024) := by
  have fits : (greeting "Upgrade").Fits := by decide +kernel
  refine ⟨fits, (decidedExactly_iff fits greetingPlatform _ configCreate _).mpr ?_⟩
  rintro ⟨-, -, absent⟩
  exact absent (by decide +kernel)

/-- With the value 1 for the missing `return`, a request without an upgrade is accepted. -/
theorem not_decidedExactly_keepAlive :
    ¬ (greeting "keep-alive").DecidedExactly greetingPlatform (fun _ => 0) configCreate
      (strLocal 1024) := by
  intro exact_decision
  have fits : (greeting "keep-alive").Fits := by decide +kernel
  have acceptable : (greeting "keep-alive").Acceptable greetingPlatform.fnmatch configCreate := by
    decide +kernel
  have accepted := (fits.decision greetingPlatform (fun _ => 0) configCreate (strLocal 1024)
    fun _ => 1).mpr ⟨acceptable, Or.inr ⟨text "keep-alive", by decide +kernel, by decide⟩⟩
  exact absurd ((exact_decision fun _ => 1).mp accepted).2 (by decide +kernel)

end RequestText

end Jabsocket
