import Jabsocket.Buffer
import Jabsocket.Expat

/-!
# Cutting the XMPP stream into frames

The framer keeps the received bytes in a buffer and, from the handlers of its XML parser, a queue
of frames given by their position in the document.  Positions are kept in 32-bit integers.
-/

namespace Jabsocket

/-- Conversion to a 32-bit `int`. -/
def toInt32 (value : Int) : Int :=
  Int.bmod value (2 ^ 32)

/-- Conversion of an `int` to `size_t`. -/
def toSize (value : Int) : Nat :=
  (value % 2 ^ 64).toNat

/-- `frame_t`. -/
structure QueuedFrame where
  index : Int
  size : Int
  deriving DecidableEq, Repr

/-- `framer_t`: the bytes given to its parser, and the queue from `head` to `tail`. -/
structure Framer where
  fed : List UInt8
  level : Int
  error : Bool
  index : Int
  frames : List QueuedFrame
  buffer : Buffer
  bufferIndex : Int
  deriving DecidableEq, Repr

/-- `framer_create`. -/
def framerCreate : Framer :=
  { fed := []
    level := 0
    error := false
    index := 0
    frames := []
    buffer := bufferCreate 0
    bufferIndex := 0 }

/-- `framer_reset`: everything is released and initialized again. -/
def framerReset (_ : Framer) : Framer :=
  framerCreate

/-- `framer_add_frame`. -/
def framerAddFrame (framer : Framer) (index size : Int) : Framer :=
  { framer with frames := framer.frames ++ [{ index := toInt32 index, size := toInt32 size }] }

/-- `framer_start`. -/
def framerStart (framer : Framer) (el : List UInt8) (index count : Nat) : Framer :=
  let framer :=
    match bareName el with
    | some name =>
        if name = text "stream" then framerAddFrame { framer with level := 0 } index count
        else if framer.level = 1 then { framer with index := toInt32 index }
        else framer
    | none => framer
  { framer with level := framer.level + 1 }

/-- `framer_end`. -/
def framerEnd (framer : Framer) (el : List UInt8) (index count : Nat) : Framer :=
  let framer := { framer with level := framer.level - 1 }
  if framer.level = 1 then
    let endIndex := toInt32 (index + count)
    framerAddFrame framer framer.index (endIndex - framer.index)
  else if bareName el = some (text "stream") then framerAddFrame framer index count
  else framer

/-- The handlers of the framer's parser. -/
def framerHandle (framer : Framer) : Callback → Framer
  | .start el _ index count => framerStart framer el index count
  | .stop el index count => framerEnd framer el index count

/-- `framer_add`. -/
def framerAdd (expat : Expat) (framer : Framer) (message : List UInt8) : Framer × Bool :=
  let handled := (xmlParse expat framer.fed message).foldl framerHandle framer
  let fed := framer.fed ++ message
  if expat.accepts fed then
    ({ handled with fed, buffer := (bufferAppend 0 handled.buffer message).1 }, true)
  else ({ handled with fed, error := true }, false)

/-- `framer_has_frame`. -/
def framerHasFrame (framer : Framer) : Bool :=
  !framer.frames.isEmpty

/-- Drop the bytes of the buffer before a frame. -/
def framerSkipTo (framer : Framer) (index : Int) : Framer :=
  if index > framer.bufferIndex then
    let delta := toInt32 (index - framer.bufferIndex)
    { framer with
      buffer := bufferRemoveData framer.buffer (toSize delta)
      bufferIndex := toInt32 (framer.bufferIndex + delta) }
  else framer

/-- Drop a frame from the buffer and from the queue, after it has been copied. -/
def framerDrop (framer : Framer) (size : Nat) : Framer :=
  { framer with
    buffer := bufferRemoveData framer.buffer size
    frames := framer.frames.tail
    bufferIndex := toInt32 (framer.bufferIndex + size) }

/-- `framer_get_frame`, for a queue with a frame: the framer and the frame. -/
def framerGetFrame (heap : Heap) (framer : Framer) (head : QueuedFrame) : Framer × List UInt8 :=
  let framer := framerSkipTo framer head.index
  let size := toSize head.size
  (framerDrop framer size, readBytes heap framer.buffer.data 0 size)

/-- `framer_get_frame2`, for a queue with a frame: the framer, the filled `data_t` and the size. -/
def framerGetFrame2 (heap : Heap) (framer : Framer) (head : QueuedFrame) (data : Data) :
    Framer × Data × Nat :=
  let framer := framerSkipTo framer head.index
  let size := toSize head.size
  (framerDrop framer size, bufferGetData2 heap framer.buffer data size, size)

end Jabsocket
