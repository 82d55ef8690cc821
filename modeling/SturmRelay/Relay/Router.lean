import SturmRelay.Foundations.StreamReader
import SturmRelay.Protocol.RelayWire
import SturmRelay.Relay.Consistency

/-! # Routing

`internal/relay/router.go` and the loop of `internal/relay/tcphandler.go`: what the server does
with one packet, whichever transport it came over.

* A panic ends the process; a function that can panic returns a `Fault` in its place.
* Whether a socket write succeeds is up to the network (`Network`). `Sent` lists the writes that
  did, with the player each was meant for and the bytes put on the wire.
* The first halves of the two loops are the same code (`withSender`); `answerDatagram` and
  `answerFrame` are their second halves. -/

namespace SturmRelay
set_option autoImplicit false

/-! ## Sockets and frames -/

/-- Where a packet comes from or goes to. -/
inductive Endpoint
  | udp (addr : AddrPort)
  | tcp (conn : Conn)
  deriving DecidableEq, Repr

/-- Whether a write to an endpoint succeeds. -/
abbrev Network := Endpoint → Bytes → Bool

def Network.reliable : Network := fun _ _ => true

structure Sent where
  playerID : PlayerID
  endpoint : Endpoint
  bytes : Bytes
  deriving DecidableEq, Repr

def maxTCPFramePayload : ℕ := 1400

/-- The size of the buffers of `tcpFramePool`. -/
def tcpFramePoolSize : ℕ := 2 + maxTCPFramePayload

/-- The size of the buffer packets are read into. -/
def readBufferSize : ℕ := 1500

/-- The frame written for a packet: its length in two bytes, as `uint16` holds it, and the packet. -/
def writeTCPFrame (data : Bytes) : Except Fault Bytes :=
  let total := 2 + data.length
  if total ≤ tcpFramePoolSize then .ok (beEncode 2 data.length ++ data)
  else .error (.sliceBounds total tcpFramePoolSize)

inductive FrameError
  | io (e : EOF)
  | emptyFrame
  | frameTooLarge (n : ℕ)
  | shortBuffer
  deriving DecidableEq, Repr

def FrameError.message : FrameError → String
  | .io e => e.message
  | .emptyFrame => "empty TCP frame"
  | .frameTooLarge n =>
    "TCP frame too large: " ++ toString n ++ " bytes (max " ++ toString maxTCPFramePayload ++ ")"
  | .shortBuffer => "short buffer"

open StreamReader in
/-- The next frame of a connection, read into a buffer of `bufSize` bytes. -/
def readTCPFrame (bufSize : ℕ) : StreamReader UInt8 FrameError Bytes := do
  let hdr ← (readFull 2).wrap .io
  let n := beDecode hdr
  if n = 0 then fail .emptyFrame
  else if maxTCPFramePayload < n then fail (.frameTooLarge n)
  else if bufSize < n then fail .shortBuffer
  else (readFull n).wrap .io

/-- What goes over the wire to an endpoint for a packet. -/
def Endpoint.wire : Endpoint → Bytes → Bytes
  | .udp _, data => data
  | .tcp _, data => beEncode 2 data.length ++ data

/-- The endpoint `sendToTarget` picks: the connection if there is one. -/
def PlayerSendTarget.endpoint (t : PlayerSendTarget) : Option Endpoint :=
  match t.tcpConn with
  | some conn => some (.tcp conn)
  | none => t.udpAddr.map .udp

namespace SessionManager

/-! ## Counters -/

def countDropped (sm : SessionManager) : SessionManager :=
  { sm with metrics := { sm.metrics with packetsDropped := sm.metrics.packetsDropped + 1 } }

def countSpoofed (sm : SessionManager) : SessionManager :=
  { sm with metrics := { sm.metrics with packetsSpoofed := sm.metrics.packetsSpoofed + 1 } }

def countRateLimited (sm : SessionManager) : SessionManager :=
  { sm with metrics := { sm.metrics with packetsRateLimited := sm.metrics.packetsRateLimited + 1 } }

/-- An echo counts as routed, but its bytes do not. -/
def countEchoed (sm : SessionManager) : SessionManager :=
  { sm with metrics := { sm.metrics with packetsRouted := sm.metrics.packetsRouted + 1 } }

def countRouted (n : ℕ) (sm : SessionManager) : SessionManager :=
  { sm with metrics := { sm.metrics with
      packetsRouted := sm.metrics.packetsRouted + 1
      bytesRouted := sm.metrics.bytesRouted + .ofNat n } }

/-- The counter of a verdict after which the packet is not routed. -/
def countRejected : PacketVerdict → SessionManager → SessionManager
  | .spoofed, sm => sm.countSpoofed
  | .rateLimited, sm => sm.countRateLimited
  | .unknown, sm => sm.countDropped
  | .ok, sm => sm
  | .firstAddr, sm => sm

/-! ## Sending -/

/-- The copy that was written, or `none` for the result `false`. -/
def sendToTarget (net : Network) (t : PlayerSendTarget) (data : Bytes) :
    Except Fault (Option Sent) :=
  match t.tcpConn with
  | some conn => do
    let frame ← writeTCPFrame data
    return if net (.tcp conn) frame then some ⟨t.playerID, .tcp conn, frame⟩ else none
  | none =>
    match t.udpAddr with
    | some addr =>
      .ok (if net (.udp addr) data then some ⟨t.playerID, .udp addr, data⟩ else none)
    | none => .ok none

/-- Send to one target and count. -/
def deliver (net : Network) (data : Bytes) (t : PlayerSendTarget) (sm : SessionManager) :
    Except Fault (SessionManager × List Sent) := do
  match ← sendToTarget net t data with
  | none => return (sm.countDropped, [])
  | some copy => return (sm.countRouted data.length, [copy])

def deliverAll (net : Network) (data : Bytes) :
    List PlayerSendTarget → SessionManager → Except Fault (SessionManager × List Sent)
  | [], sm => .ok (sm, [])
  | t :: ts, sm => do
    let (sm, first) ← deliver net data t sm
    let (sm, rest) ← deliverAll net data ts sm
    return (sm, first ++ rest)

def unicast (net : Network) (r : SessionRef) (destID : PlayerID) (data : Bytes) (sm : SessionManager) :
    Except Fault (SessionManager × List Sent) :=
  match (sm.session r).getPlayerTarget destID with
  | none => .ok (sm.countDropped, [])
  | some t => deliver net data t sm

def broadcast (net : Network) (o : RangeOrder PlayerID) (r : SessionRef) (senderID : PlayerID)
    (data : Bytes) (sm : SessionManager) : Except Fault (SessionManager × List Sent) :=
  deliverAll net data ((sm.session r).forEachOtherPlayerTarget o senderID) sm

def route (net : Network) (o : RangeOrder PlayerID) (r : SessionRef) (senderID destID : PlayerID)
    (data : Bytes) (sm : SessionManager) : Except Fault (SessionManager × List Sent) :=
  if destID = broadcastDest then sm.broadcast net o r senderID data
  else sm.unicast net r destID data

/-! ## The two loops -/

/-- The manager after a packet, the verdict if it got as far as one, the copies written and the
connections closed. -/
structure Handled where
  sm : SessionManager
  verdict : Option PacketVerdict := none
  sent : List Sent := []
  closed : List Conn := []

/-- The first half of both loops: decode the header, find the sender's session. -/
def withSender (data : Bytes) (sm : SessionManager)
    (k : PlayerID → PlayerID → SessionRef → Except Fault Handled) : Except Fault Handled :=
  if data.length < relayHeaderSize then .ok { sm := sm.countDropped }
  else do
    match ← decodeRelayHeader data with
    | .error _ => return { sm := sm.countDropped }
    | .ok (senderID, destID) =>
      match sm.findSessionByPlayer senderID with
      | none => return { sm := sm.countDropped }
      | some r => k senderID destID r

/-- The end of a turn of `Router.Run`, from the verdict on. -/
def answerDatagram (net : Network) (o : RangeOrder PlayerID) (remoteAddr : AddrPort) (data : Bytes)
    (senderID destID : PlayerID) (r : SessionRef) (verdict : PacketVerdict) (sm : SessionManager) :
    Except Fault Handled :=
  if verdict.accepted then
    if destID = senderID then
      -- the result of this write is not looked at
      let echo := if net (.udp remoteAddr) data then [⟨senderID, .udp remoteAddr, data⟩] else []
      .ok { sm := sm.countEchoed, verdict := some verdict, sent := echo }
    else do
      let (sm, sent) ← sm.route net o r senderID destID data
      return { sm := sm, verdict := some verdict, sent := sent }
  else .ok { sm := sm.countRejected verdict, verdict := some verdict }

/-- One turn of `Router.Run`. -/
def handleDatagram (net : Network) (o : RangeOrder PlayerID) (remoteAddr : AddrPort) (data : Bytes)
    (now : Instant) (sm : SessionManager) : Except Fault Handled :=
  sm.withSender data fun senderID destID r =>
    let (verdict, sm) := sm.updatePlayerAddr r senderID remoteAddr now
    sm.answerDatagram net o remoteAddr data senderID destID r verdict

/-- The end of a turn of `handleConn`, from the verdict on. A turn that leaves the loop closes the
connection. -/
def answerFrame (net : Network) (o : RangeOrder PlayerID) (conn : Conn) (data : Bytes)
    (senderID destID : PlayerID) (r : SessionRef) (verdict : PacketVerdict) (oldConn : Option Conn)
    (sm : SessionManager) : Except Fault Handled :=
  let evicted := (oldConn.filter (· ≠ conn)).toList
  if verdict.accepted then
    if destID = senderID then do
      let frame ← writeTCPFrame data
      if net (.tcp conn) frame then
        return { sm := sm.countEchoed, verdict := some verdict, closed := evicted,
                 sent := [⟨senderID, .tcp conn, frame⟩] }
      else return { sm := sm, verdict := some verdict, closed := evicted ++ [conn] }
    else do
      let (sm, sent) ← sm.route net o r senderID destID data
      return { sm := sm, verdict := some verdict, sent := sent, closed := evicted }
  else .ok { sm := sm.countRejected verdict, verdict := some verdict,
             closed := evicted ++ if verdict = .spoofed then [conn] else [] }

/-- One turn of `handleConn`, from the frame it has read. -/
def handleFrame (net : Network) (o : RangeOrder PlayerID) (conn : Conn) (data : Bytes)
    (now : Instant) (sm : SessionManager) : Except Fault Handled :=
  sm.withSender data fun senderID destID r =>
    let (verdict, oldConn, sm) := sm.updatePlayerTCP r senderID conn now
    sm.answerFrame net o conn data senderID destID r verdict oldConn

/-- One turn of the loop that reads from the endpoint's socket. -/
def handlePacket (net : Network) (o : RangeOrder PlayerID) (src : Endpoint) (data : Bytes)
    (now : Instant) (sm : SessionManager) : Except Fault Handled :=
  match src with
  | .udp remoteAddr => sm.handleDatagram net o remoteAddr data now
  | .tcp conn => sm.handleFrame net o conn data now

/-- The update of the sender that the loop for the endpoint makes. -/
def updatePlayer (src : Endpoint) (r : SessionRef) (playerID : PlayerID) (now : Instant)
    (sm : SessionManager) : PacketVerdict × SessionManager :=
  match src with
  | .udp addr => sm.updatePlayerAddr r playerID addr now
  | .tcp conn => ((sm.updatePlayerTCP r playerID conn now).1, (sm.updatePlayerTCP r playerID conn now).2.2)

end SessionManager
end SturmRelay
