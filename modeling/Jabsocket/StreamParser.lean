import Jabsocket.Expat

/-!
# Finding the XMPP server

The browser opens its stream with an element whose `to` attribute names the XMPP server.
-/

namespace Jabsocket

/-- `streamparser_t`: the bytes given to its parser, the error flag and the server. -/
structure StreamParser where
  fed : List UInt8
  error : Bool
  server : Option (List UInt8)
  deriving DecidableEq, Repr

/-- `streamparser_create`. -/
def streamparserCreate : StreamParser :=
  { fed := [], error := false, server := none }

/-- `streamparser_start`, and `streamparser_end` which does nothing. -/
def streamparserStart (server : Option (List UInt8)) : Callback → Option (List UInt8)
  | .start el attr _ _ =>
      match bareName el, server with
      | some element, none =>
          if namespaceOf el = text "http://etherx.jabber.org/streams" ∧ element = text "stream" then
            (attr.find? fun entry => entry.1 == text "to").map Prod.snd
          else none
      | _, _ => server
  | .stop _ _ _ => server

/-- `streamparser_add` for the contents of a C string. -/
def streamparserAdd (expat : Expat) (parser : StreamParser) (data : List UInt8) :
    StreamParser × Bool :=
  let server := (xmlParse expat parser.fed data).foldl streamparserStart parser.server
  let fed := parser.fed ++ data
  if expat.accepts fed then ({ parser with fed, server }, true)
  else ({ fed, server, error := true }, false)

end Jabsocket
