import Jabsocket.FrameEncoding
import Jabsocket.Chunking
import Jabsocket.Truncation
import Jabsocket.Output
import Jabsocket.Reclaim
import Jabsocket.Forwarding
import Jabsocket.Delivery
import Jabsocket.FrameDecoding
import Jabsocket.Reference
import Jabsocket.Stanzas
import Jabsocket.ServerLoss
import Jabsocket.Limits
import Jabsocket.Intake
import Jabsocket.ReadCallback
import Jabsocket.ConfigParse
import Jabsocket.Reuse
import Jabsocket.Literal
import Jabsocket.Pieces
import Jabsocket.Parking
import Jabsocket.Refusal
import Jabsocket.QueueBounds
import Jabsocket.Answers
import Jabsocket.BufferQueue
import Jabsocket.Termination
import Jabsocket.Base64Coding
import Jabsocket.Outline
import Jabsocket.Depth
import Jabsocket.Offsets
import Jabsocket.FailedAdd
import Jabsocket.Outbox
import Jabsocket.Closing
import Jabsocket.HandshakeInput
import Jabsocket.Response
import Jabsocket.Opening
import Jabsocket.Display
import Jabsocket.Conversation
import Jabsocket.Relay
import Jabsocket.Footprint
import Jabsocket.Uptake
import Jabsocket.Uplink
import Jabsocket.Interleaving
import Jabsocket.Server
import Jabsocket.Client
import Jabsocket.Greeting
import Jabsocket.Scripts
import Jabsocket.ConfigFile
