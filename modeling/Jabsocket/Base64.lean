import Jabsocket.Str

/-!
# Base64

The encoder which produces the handshake response.
-/

namespace Jabsocket

/-- `encoding_table`. -/
def encodingTable : List UInt8 :=
  text "ABCDEFGHIJKLMNOPQRSTUVWXYZabcdefghijklmnopqrstuvwxyz0123456789+/"

/-- The character for six bits of a triple. -/
def encodeSextet (triple position : Nat) : UInt8 :=
  encodingTable.getD (triple >>> (position * 6) &&& 0x3F) 0

/-- The loop of `base64_encode`: three octets become four characters, missing octets count as
zero. -/
def encodeTriples : List UInt8 → Str → Str
  | [], str => str
  | [octetA], str => encodeTriple str (octetA.toNat <<< 16)
  | [octetA, octetB], str => encodeTriple str (octetA.toNat <<< 16 + octetB.toNat <<< 8)
  | octetA :: octetB :: octetC :: rest, str =>
      encodeTriples rest
        (encodeTriple str (octetA.toNat <<< 16 + octetB.toNat <<< 8 + octetC.toNat))
where
  /-- Append the four characters of a triple. -/
  encodeTriple (str : Str) (triple : Nat) : Str :=
    [3, 2, 1, 0].foldl (fun str position => strAppendChar str (encodeSextet triple position)) str

/-- `base64_encode`. -/
def base64Encode (data : List UInt8) (str : Str) : Str :=
  let padding := [0, 2, 1].getD (data.length % 3) 0
  let str := encodeTriples data (strPrint str [])
  let str :=
    if padding > 0 then { str with buffer := overwrite str.buffer (str.length - 1) (text "=") }
    else str
  if padding > 1 then { str with buffer := overwrite str.buffer (str.length - 2) (text "=") }
  else str

end Jabsocket
