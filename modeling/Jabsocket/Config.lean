import Jabsocket.Str

/-!
# Configuration

The settings which the handshake and the receiver consult.
-/

namespace Jabsocket

/-- `jsconf_t`: the origin patterns in list order, the optional host and resource, and the limits
on incoming data. -/
structure JsConf where
  originList : List (List UInt8)
  host : Option (List UInt8)
  resource : Option (List UInt8)
  maxMessageSize : Nat
  maxFrameSize : Nat
  deriving DecidableEq, Repr

/-- `config_create`. -/
def configCreate : JsConf :=
  { originList := [], host := none, resource := none, maxMessageSize := 0, maxFrameSize := 0 }

/-- `config_check_origin`: an empty list accepts every origin. -/
def configCheckOrigin (platform : Platform) (conf : JsConf) (origin : List UInt8) : Bool :=
  conf.originList.isEmpty || conf.originList.any fun url => platform.fnmatch url origin

end Jabsocket
