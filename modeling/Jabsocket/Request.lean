import Jabsocket.Base64
import Jabsocket.Config

/-!
# Opening handshake

The request parser collects one header at a time in a fixed line buffer, copies the values it knows
into fixed-size strings, and decides at the end whether the connection is accepted.
-/

namespace Jabsocket

/-- `enum State` of the request parser. -/
inductive ParserState where
  | start
  | header
  | error
  deriving DecidableEq, Repr

/-- `request_t`.  The list of protocols begins at `protocols_head`; `overrun` records that the code
looked for the end of `line` in a buffer without a NUL. -/
structure Request where
  state : ParserState
  line : List UInt8
  overrun : Bool
  done : Bool
  error : Bool
  methodStr : Str
  resourceStr : Str
  protocolStr : Str
  hostStr : Str
  upgradeStr : Str
  connectionStr : Str
  wsKeyStr : Str
  wsProtocolStr : Str
  protocols : List Str
  protocolCount : Nat
  wsVersionStr : Str
  originStr : Str
  flUpgradeFound : Bool
  flConnectionFound : Bool
  deriving DecidableEq, Repr

/-- `LINE_BUFFER_SIZE`. -/
def lineBufferSize : Nat := 4096

/-- A freshly allocated block: its bytes are whatever the allocator left at the offset. -/
def allocated (memory : Nat → UInt8) (offset size : Nat) : List UInt8 :=
  (List.range size).map fun index => memory (offset + index)

/-- `rq_create` on the given memory. -/
def rqCreate (memory : Nat → UInt8) : Request :=
  { state := .start
    line := allocated memory 0 lineBufferSize
    overrun := false
    done := false
    error := false
    methodStr := strInit (allocated memory 4096 16) 16
    resourceStr := strInit (allocated memory 4112 256) 256
    protocolStr := strInit (allocated memory 4368 16) 16
    hostStr := strInit (allocated memory 4384 256) 256
    upgradeStr := strInit (allocated memory 4640 64) 64
    connectionStr := strInit (allocated memory 4704 64) 64
    wsKeyStr := strInit (allocated memory 4768 64) 64
    wsProtocolStr := strInit (allocated memory 4832 64) 64
    protocols := []
    protocolCount := 0
    wsVersionStr := strInit (allocated memory 4896 32) 32
    originStr := strInit (allocated memory 4928 256) 256
    flUpgradeFound := false
    flConnectionFound := false }

/-- `rq_clear`. -/
def rqClear (request : Request) : Request :=
  { request with
    done := false
    error := false
    state := .start
    methodStr := strClear request.methodStr
    resourceStr := strClear request.resourceStr
    protocolStr := strClear request.protocolStr
    hostStr := strClear request.hostStr
    upgradeStr := strClear request.upgradeStr
    connectionStr := strClear request.connectionStr
    wsKeyStr := strClear request.wsKeyStr
    wsProtocolStr := strClear request.wsProtocolStr
    wsVersionStr := strClear request.wsVersionStr
    originStr := strClear request.originStr
    protocols := []
    protocolCount := 0
    flUpgradeFound := false
    flConnectionFound := false }

/-- The delimiters of the request line. -/
def isBlank (byte : UInt8) : Bool :=
  byte == 32 || byte == 9

/-- The delimiter of a list in a header. -/
def isComma (byte : UInt8) : Bool :=
  byte == 44

/-- `parse_request_line`.  The third token is looked for, but `protocol_str` receives the
resource. -/
def parseRequestLine (platform : Platform) (request : Request) (line : List UInt8) :
    Request × Bool :=
  match tokens isBlank line with
  | [] => (request, false)
  | [method] =>
      ({ request with methodStr := strSetString platform request.methodStr method }, false)
  | [method, resource] =>
      ({ request with
          methodStr := strSetString platform request.methodStr method
          resourceStr := strSetString platform request.resourceStr resource }, false)
  | method :: resource :: _ :: _ =>
      ({ request with
          methodStr := strSetString platform request.methodStr method
          resourceStr := strSetString platform request.resourceStr resource
          protocolStr := strSetString platform request.protocolStr resource }, true)

/-- A local `str_t` with a buffer on the stack. -/
def strLocal (size : Nat) : Str :=
  strInit (List.replicate size 0) size

/-- The list element which `_get_protocols` makes of a token. -/
def protocolElement (platform : Platform) (token : List UInt8) : Str :=
  strCopyString platform (strLocal 16) (strTrimWhitespace platform (strLocal 16) token)

/-- `_get_protocols`: every token of `ws_protocol_str` is put at the head of the list, and the
commas after the tokens are overwritten. -/
def getProtocols (platform : Platform) (request : Request) : Request :=
  let string := cstr request.wsProtocolStr.buffer
  { request with
    wsProtocolStr :=
      { request.wsProtocolStr with
        buffer := overwrite request.wsProtocolStr.buffer 0 (spoil isComma string) }
    protocols :=
      ((tokens isComma string).map (protocolElement platform)).reverse ++ request.protocols
    protocolCount := request.protocolCount + (tokens isComma string).length }

/-- `_find_connection_upgrade`.  The source has no `return` after the loop. -/
def findConnectionUpgrade (platform : Platform) (request : Request) : Int :=
  let copy := strCopyString platform (strLocal 64) request.connectionStr
  if (tokens isComma (cstr copy.buffer)).any fun token =>
      strIsEqualNocase (strTrimWhitespace platform (strLocal 16) token) (text "Upgrade") then 1
  else platform.missingReturn (cstr request.connectionStr.buffer)

/-- `_process`. -/
def rqProcess (platform : Platform) (request : Request) (key value : List UInt8) : Request :=
  if equalNocase key (text "host") then
    { request with hostStr := strTrimBeginning platform request.hostStr value }
  else if equalNocase key (text "upgrade") then
    let upgradeStr := strTrimBeginning platform request.upgradeStr value
    { request with
      upgradeStr
      flUpgradeFound := request.flUpgradeFound || strIsEqualNocase upgradeStr (text "websocket") }
  else if equalNocase key (text "connection") then
    let request :=
      { request with connectionStr := strTrimBeginning platform request.connectionStr value }
    { request with
      flConnectionFound :=
        request.flConnectionFound || decide (findConnectionUpgrade platform request ≠ 0) }
  else if equalNocase key (text "Sec-WebSocket-Key") then
    { request with wsKeyStr := strTrimBeginning platform request.wsKeyStr value }
  else if equalNocase key (text "Sec-WebSocket-Protocol") then
    getProtocols platform
      { request with wsProtocolStr := strTrimBeginning platform request.wsProtocolStr value }
  else if equalNocase key (text "Sec-WebSocket-Version") then
    { request with wsVersionStr := strTrimBeginning platform request.wsVersionStr value }
  else if equalNocase key (text "Origin") then
    { request with originStr := strTolower (strTrimBeginning platform request.originStr value) }
  else request

/-- Look for the NUL in the line buffer, as every `strlen(h->line)` does. -/
def scanLine (request : Request) : Request :=
  { request with overrun := request.overrun || decide (0 ∉ request.line) }

/-- The header in the line buffer is complete: split it at the colon and process it.  `none` when
there is no colon. -/
def flushLine (platform : Platform) (request : Request) : Option Request :=
  let line := cstr request.line
  if line.length > 0 then
    if 58 ∈ line then
      some (rqProcess platform request (line.takeWhile (· ≠ 58)) (line.dropWhile (· ≠ 58)).tail)
    else none
  else some request

/-- Append a line to the line buffer, after emptying it unless the line continues a header. -/
def appendLine (request : Request) (line : List UInt8) : Request :=
  match line with
  | [] => request
  | first :: rest =>
      let request :=
        if isspace first then request
        else { request with line := overwrite request.line 0 [0] }
      let request := scanLine request
      let plen := (cstr request.line).length
      let left : Int := lineBufferSize - plen - 1
      { request with
        line := strncpy request.line plen (if isspace first then rest else line) left.toNat }

/-- `rq_add_line` in `ST_START`. -/
def addRequestLine (platform : Platform) (request : Request) (line : List UInt8) : Request :=
  match parseRequestLine platform request line with
  | (request, false) => { request with error := true }
  | (request, true) => { request with state := .header, line := overwrite request.line 0 [0] }

/-- `rq_add_line` in `ST_HEADER`. -/
def addHeaderLine (platform : Platform) (request : Request) (line : List UInt8) : Request :=
  let request := if line.isEmpty then { request with done := true } else request
  if line.isEmpty || !isspace (line.headD 0) then
    match flushLine platform (scanLine request) with
    | some request => appendLine request line
    | none => { scanLine request with error := true }
  else appendLine request line

/-- `rq_add_line` for the contents of a C string. -/
def rqAddLine (platform : Platform) (request : Request) (line : List UInt8) : Request :=
  match request.state with
  | .start => addRequestLine platform request line
  | .header => addHeaderLine platform request line
  | .error => request

/-- `rq_protocols_contains`. -/
def rqProtocolsContains (request : Request) (protocol : List UInt8) : Bool :=
  request.protocols.any fun element => cstr element.buffer == protocol

/-- `rq_get_protocol`. -/
def rqGetProtocol (request : Request) (index : Int) : Option (List UInt8) :=
  if index < 0 ∨ index ≥ request.protocolCount then none
  else (request.protocols[index.toNat]?).map fun element => cstr element.buffer

/-- `MAGIC_STRING`. -/
def magicString : List UInt8 :=
  text "258EAFA5-E914-47DA-95CA-C5AB0DC85B11"

/-- `rq_get_access`. -/
def rqGetAccess (platform : Platform) (challenge : List UInt8) (response : Str) : Str :=
  base64Encode (platform.sha1 ((challenge ++ magicString).take 1023)) response

/-- The end of a line in a response. -/
def crlf : List UInt8 := [13, 10]

/-- The response to a refused request. -/
def refusal (status : String) : List UInt8 :=
  text status ++ crlf ++ crlf

/-- `rq_analyze`: the response and the result. -/
def rqAnalyze (platform : Platform) (request : Request) (conf : JsConf) (response : Str) :
    Str × Int :=
  if !strIsEqualNocase request.methodStr (text "GET") then
    (strPrint response (refusal "HTTP/1.1 405 Method Not Allowed"), 0)
  else if !configCheckOrigin platform conf (cstr request.originStr.buffer) then
    (strPrint response (refusal "HTTP/1.1 403 Forbidden"), 0)
  else if !rqProtocolsContains request (text "xmpp") then
    (strPrint response (refusal "HTTP/1.1 400 Bad Request"), 0)
  else if cstr request.wsKeyStr.buffer = [] then
    (strPrint response (refusal "HTTP/1.1 400 Bad Request"), 0)
  else if conf.host.any fun host => host != cstr request.hostStr.buffer then
    (strPrint response (refusal "HTTP/1.1 400 Bad Request"), 0)
  else if !request.flUpgradeFound then
    (strPrint response (refusal "HTTP/1.1 400 Bad Request"), 0)
  else if !request.flConnectionFound then
    (strPrint response (refusal "HTTP/1.1 400 Bad Request"), 0)
  else if conf.resource.any fun resource => !strIsEqualNocase request.resourceStr resource then
    (strPrint response (refusal "HTTP/1.1 404 Not Found"), 0)
  else if cstr request.wsVersionStr.buffer ≠ text "13" then
    (strPrint response
      (text "HTTP/1.1 426 Upgrade Required" ++ crlf ++ text "Sec-WebSocket-Version: 13" ++ crlf ++
        crlf), 0)
  else
    let acceptStr := rqGetAccess platform (cstr request.wsKeyStr.buffer) (strLocal 64)
    (strPrint response
      (text "HTTP/1.1 101 Switching Protocols" ++ crlf ++ text "Upgrade: websocket" ++ crlf ++
        text "Connection: " ++ cstr request.connectionStr.buffer ++ crlf ++
        text "Sec-WebSocket-Accept: " ++ cstr acceptStr.buffer ++ crlf ++
        text "Sec-WebSocket-Protocol: xmpp" ++ crlf ++ crlf), 1)

end Jabsocket
