import SturmRelay.Foundations.Segments
import SturmRelay.Relay.Router

/-! # The adapter's connection to the relay server

`internal/adapter/relayconn.go`: sending and receiving, over UDP or over TCP. A connection builds its
packets in two buffers that are allocated once and never cleared, so both are part of the state.
Writes take all their bytes. The packet counters and the health timestamps are left out: nothing
that is sent or dispatched depends on them. -/

namespace SturmRelay
namespace Adapter
set_option autoImplicit false

/-- `rc.sendBuf` and the buffers of the two receive loops. -/
def packetBufferSize : ℕ := 1500

structure RelayConnection where
  localID : UInt32
  relayAddr : AddrPort
  useTCP : Bool
  sendBuf : Buffer packetBufferSize
  tcpFrameBuf : Buffer (2 + maxRelayPacket)

def newRelayConnection (relayAddr : AddrPort) (localID : UInt32) : RelayConnection where
  localID := localID
  relayAddr := relayAddr
  useTCP := false
  sendBuf := .zero _
  tcpFrameBuf := .zero _

/-- What one send puts on the network. -/
inductive Wire
  | datagram (bytes : Bytes)
  | frame (bytes : Bytes)
  deriving DecidableEq, Repr

def Wire.bytes : Wire → Bytes
  | .datagram bytes => bytes
  | .frame bytes => bytes

inductive SendError
  | payloadTooLarge (n : ℕ)
  deriving DecidableEq, Repr

def SendError.message : SendError → String
  | .payloadTooLarge n =>
    "payload too large: " ++ toString n ++ " bytes (max " ++ toString maxRelayPayload ++ ")"

/-- The next frame of a connection, read into a buffer of `bufSize` bytes. Unlike the server's, this
reader takes empty frames and has no bound of its own. -/
def readTCPFrame (bufSize : ℕ) : ReadScript UInt8 FrameError Bytes :=
  .readFull 2 .io fun hdr =>
    let n := beDecode hdr
    if bufSize < n then .fail .shortBuffer
    else .readFull n .io .ret

namespace RelayConnection

/-! ## Sending -/

/-- The bytes written, and the connection with its frame buffer written over. -/
def writeTCPFrame (data : Bytes) (rc : RelayConnection) : Except Fault (Bytes × RelayConnection) := do
  let total := 2 + data.length
  let buf ← rc.tcpFrameBuf.copyAt 0 2 (beEncode 2 data.length)
  let buf ← buf.copyAt 2 total data
  let out ← buf.slice 0 total
  return (out, { rc with tcpFrameBuf := buf })

/-- The part of `Send` and `SendHello` that depends on the transport: `buf` is the packet. -/
def transmit (buf : Bytes) (rc : RelayConnection) : Except Fault (Wire × RelayConnection) :=
  if rc.useTCP then do
    let (bytes, rc) ← rc.writeTCPFrame buf
    return (.frame bytes, rc)
  else return (.datagram buf, rc)

def send (destID : UInt32) (payload : Bytes) (rc : RelayConnection) :
    Except Fault (Except SendError Wire × RelayConnection) :=
  let total := relayHeaderSize + payload.length
  if maxRelayPacket < total then .ok (.error (.payloadTooLarge payload.length), rc)
  else do
    let buf ← rc.sendBuf.slice 0 total
    let buf ← encodeRelayHeader buf rc.localID destID
    let buf ← copyInto buf relayHeaderSize total payload
    -- `buf` is a slice of `sendBuf`, so what is written to it stays there
    let sendBuf ← rc.sendBuf.copyAt 0 total buf
    let (wire, rc) ← transmit buf { rc with sendBuf := sendBuf }
    return (.ok wire, rc)

def sendHello (rc : RelayConnection) : Except Fault (Wire × RelayConnection) := do
  let buf ← rc.sendBuf.slice 0 relayHeaderSize
  let buf ← encodeRelayHeader buf rc.localID rc.localID
  let sendBuf ← rc.sendBuf.copyAt 0 relayHeaderSize buf
  transmit buf { rc with sendBuf := sendBuf }

/-! ## Receiving -/

/-- What a receive loop does with a packet; `dispatch` is a call of `dispatchTopeer`. -/
inductive Received
  | ignored
  | pong
  | dispatch (senderID : UInt32) (payload : Bytes) (totalBytes : ℕ)
  deriving DecidableEq, Repr

/-- The part of both receive loops after the packet `buf[:n]` has been read. -/
def receive (rc : RelayConnection) (data : Bytes) : Except Fault Received :=
  if data.length < relayHeaderSize then .ok .ignored
  else do
    match ← decodeRelayHeader data with
    | .error _ => return .ignored
    | .ok (senderID, _) =>
      if senderID = rc.localID then return .pong
      else return .dispatch senderID (← slice data relayHeaderSize data.length) data.length

/-- One turn of `receiveUDP`; a datagram longer than the buffer is cut. -/
def receiveUDP (rc : RelayConnection) (remoteAddr : AddrPort) (datagram : Bytes) :
    Except Fault Received :=
  if remoteAddr.addr ≠ rc.relayAddr.addr then .ok .ignored
  else rc.receive (datagram.take packetBufferSize)

end RelayConnection
end Adapter
end SturmRelay
