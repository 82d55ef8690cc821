import SturmRelay.Adapter.RelayPeer
import SturmRelay.Relay.Egress

/-! # From game to game through the relay

Any number of adapters in UDP mode, the relay server, and the network between them. One event is one
step of one goroutine of one adapter, one packet read by the server, one datagram read by an adapter,
one call of the session manager, or one reaper pass. The network may lose, repeat and reorder: a
datagram that has been sent stays in `toServer` or `toAdapters`, and any of them can be read at any
time, any number of times.

Strangers may send the server what they like from their own addresses, over UDP or TCP, as players of
the same session or not; they do not send from an adapter's address, and bear neither an adapter's ID
nor the reserved one (`Roster.Honest`). Hosts other than the server may send datagrams to the adapters. -/

namespace SturmRelay
namespace Adapter
set_option autoImplicit false

open SessionManager

/-! ## Adapters -/

/-- A `*Peer`. -/
abbrev PeerPtr := ℕ

/-- The relay connection of an adapter, the relay peers in its table, and all peers it ever had. -/
structure RelayAdapter where
  rc : RelayConnection
  peers : Table ℤ PeerPtr := ∅
  heap : Heap RelayPeer := ⟨0, fun _ => { playerID := 0 }⟩

inductive AdapterTask
  | addPeer (playerID : ℤ)
  | removePeer (playerID : ℤ)
  | task (peer : PeerPtr) (t : PeerTask)
  | hello

namespace RelayAdapter

/-- `AddPeer`, when the socket can be bound. -/
def addPeer (playerID : ℤ) (a : RelayAdapter) : RelayAdapter :=
  match a.peers.lookup playerID with
  | some _ => a
  | none =>
    { a with
      peers := a.peers.insert playerID a.heap.next
      heap := a.heap.alloc { playerID := playerID } }

/-- `RemovePeer`. The goroutines of a peer that is closed may still take steps. -/
def removePeer (playerID : ℤ) (a : RelayAdapter) : RelayAdapter :=
  { a with peers := a.peers.erase playerID }

/-- `Send`, and what it puts on the network. A payload that is too large is refused. -/
def send (destID : UInt32) (payload : Bytes) (a : RelayAdapter) : RelayAdapter × Option Bytes :=
  match a.rc.send destID payload with
  | .ok (.ok wire, rc) => ({ a with rc := rc }, some wire.bytes)
  | .ok (.error _, rc) => ({ a with rc := rc }, none)
  | .error _ => (a, none)

def sendHello (a : RelayAdapter) : RelayAdapter × Option Bytes :=
  match a.rc.sendHello with
  | .ok (wire, rc) => ({ a with rc := rc }, some wire.bytes)
  | .error _ => (a, none)

def setPeer (r : PeerPtr) (p : RelayPeer) (a : RelayAdapter) : RelayAdapter :=
  { a with heap := a.heap.modify r fun _ => p }

/-- A step of a peer's goroutine, with the packet it sends if it sends one. -/
def runTask (r : PeerPtr) (t : PeerTask) (a : RelayAdapter) : RelayAdapter × Option Bytes :=
  let out := (a.heap.cell r).perform t
  match out.2 with
  | .send destID payload => (a.setPeer r out.1).send destID payload
  | _ => (a.setPeer r out.1, none)

/-- A turn of `receiveUDP`, with the `dispatchTopeer` it ends in. -/
def receive (src : AddrPort) (datagram : Bytes) (a : RelayAdapter) : RelayAdapter :=
  match a.rc.receiveUDP src datagram with
  | .ok (.dispatch senderID payload _) =>
    match a.peers.lookup (senderID.toNat : ℤ) with
    | some r => a.setPeer r ((a.heap.cell r).deliverFromRelay payload)
    | none => a
  | _ => a

def step (a : RelayAdapter) : AdapterTask → RelayAdapter × Option Bytes
  | .addPeer playerID => (a.addPeer playerID, none)
  | .removePeer playerID => (a.removePeer playerID, none)
  | .task r t => if r < a.heap.next then a.runTask r t else (a, none)
  | .hello => a.sendHello

end RelayAdapter

/-! ## The players -/

/-- Who the adapters are: their player IDs, their addresses as the server sees them, and the server's
address. -/
structure Roster (ι : Type) where
  id : ι → UInt32
  addr : ι → AddrPort
  serverAddr : AddrPort
  id_injective : Function.Injective id
  addr_injective : Function.Injective addr
  id_ne_broadcast : ∀ i, id i ≠ broadcastDest

/-! ## What the observer writes down -/

/-- A packet read from the game of an adapter, and the ID it is sent to. -/
structure FromGame (ι : Type) where
  adapter : ι
  destID : UInt32
  data : Bytes
  deriving DecidableEq, Repr

structure SentPing (ι : Type) where
  adapter : ι
  destID : UInt32
  nowNs : ℤ
  deriving DecidableEq, Repr

/-- What the games and the ping loops of the adapters have started. -/
structure Journal (ι : Type) where
  fromGame : List (FromGame ι) := []
  pings : List (SentPing ι) := []

/-- A packet written to the game of an adapter on the socket of a player. -/
structure ToGame (ι : Type) where
  adapter : ι
  playerID : ℤ
  data : Bytes
  deriving DecidableEq, Repr

structure Measurement (ι : Type) where
  adapter : ι
  playerID : ℤ
  sentNs : ℤ
  nowNs : ℤ
  deriving DecidableEq, Repr

/-- The effect of a step of a peer on the journal. -/
def Journal.note {ι : Type} (i : ι) (p : RelayPeer) : PeerTask → Journal ι → Journal ι
  | .gamePacket _ datagram, log =>
    if p.outgoing = none then
      { log with fromGame := log.fromGame ++ [⟨i, p.destID, datagram.take packetBufferSize⟩] }
    else log
  | .ping nowNs, log => { log with pings := log.pings ++ [⟨i, p.destID, nowNs⟩] }
  | _, log => log

/-! ## The system -/

structure RelayNet (ι : Type) where
  server : Relay := .start
  adapters : ι → RelayAdapter
  /-- Everything the adapters have sent, with their addresses, and everything the server has sent over
  UDP, with its destination. -/
  toServer : List (AddrPort × Bytes) := []
  toAdapters : List (AddrPort × Bytes) := []
  journal : Journal ι := {}
  toGame : List (ToGame ι) := []
  measured : List (Measurement ι) := []

inductive PathEvent (ι : Type)
  | adapter (i : ι) (ev : AdapterTask)
  | serverReads (k : ℕ) (now : Instant) (o : RangeOrder PlayerID)
  | stranger (pkt : Packet)
  | call (c : SessionManager.Call) (now : Instant)
  | reap (o : ReapOrder) (clk : ReapClock)
  | adapterReads (i : ι) (k : ℕ)
  | foreign (i : ι) (src : AddrPort) (datagram : Bytes)

/-- The datagram as `Router.Run` reads it. -/
def datagramPacket (src : AddrPort) (bytes : Bytes) (now : Instant) (o : RangeOrder PlayerID) : Packet where
  src := .udp src
  data := bytes.take readBufferSize
  readable := List.length_take_le _ _
  now := now
  order := o

/-- The copies that go out over UDP. -/
def datagrams (sent : List Sent) : List (AddrPort × Bytes) :=
  sent.filterMap fun copy =>
    match copy.endpoint with
    | .udp addr => some (addr, copy.bytes)
    | .tcp _ => none

namespace RelayNet
variable {ι : Type} [DecidableEq ι] (rs : Roster ι) (net : Network)

def start : RelayNet ι where
  adapters i := { rc := newRelayConnection rs.serverAddr (rs.id i) }

def setAdapter (i : ι) (a : RelayAdapter) (s : RelayNet ι) : RelayNet ι :=
  { s with adapters := Function.update s.adapters i a }

/-- What the observer writes down of a step of a peer. -/
def record (i : ι) (p : RelayPeer) (t : PeerTask) (s : RelayNet ι) : RelayNet ι :=
  let s := { s with journal := s.journal.note i p t }
  match (p.perform t).2 with
  | .write _ data => { s with toGame := s.toGame ++ [⟨i, p.playerID, data⟩] }
  | .measured sentNs nowNs => { s with measured := s.measured ++ [⟨i, p.playerID, sentNs, nowNs⟩] }
  | _ => s

def observe (i : ι) (a : RelayAdapter) : AdapterTask → RelayNet ι → RelayNet ι
  | .task r t, s => if r < a.heap.next then s.record i (a.heap.cell r) t else s
  | _, s => s

def adapterStep (i : ι) (ev : AdapterTask) (s : RelayNet ι) : RelayNet ι :=
  let out := (s.adapters i).step ev
  let s := (s.observe i (s.adapters i) ev).setAdapter i out.1
  { s with toServer := s.toServer ++ out.2.toList.map (rs.addr i, ·) }

def serverStep (ev : RelayEvent) (s : RelayNet ι) : RelayNet ι :=
  let out := relayStep net s.server ev
  { s with server := out.1, toAdapters := s.toAdapters ++ datagrams out.2.sent }

def deliver (i : ι) (src : AddrPort) (datagram : Bytes) (s : RelayNet ι) : RelayNet ι :=
  s.setAdapter i ((s.adapters i).receive src datagram)

def step (s : RelayNet ι) : PathEvent ι → RelayNet ι × Unit
  | .adapter i ev => (s.adapterStep rs i ev, ())
  | .serverReads k now o =>
    match s.toServer[k]? with
    | some d => (s.serverStep net (.packet (datagramPacket d.1 d.2 now o)), ())
    | none => (s, ())
  | .stranger pkt => (s.serverStep net (.packet pkt), ())
  | .call c now => (s.serverStep net (.call c now), ())
  | .reap o clk => (s.serverStep net (.reap o clk), ())
  | .adapterReads i k =>
    match s.toAdapters[k]? with
    | some d => (if d.1 = rs.addr i then s.deliver i rs.serverAddr d.2 else s, ())
    | none => (s, ())
  | .foreign i src datagram => (s.deliver i src datagram, ())

end RelayNet

/-- Strangers keep to their own addresses and IDs, and only the server has its IP. -/
def Roster.Honest {ι : Type} (rs : Roster ι) : PathEvent ι → Prop
  | .stranger pkt => (∀ i, pkt.src ≠ .udp (rs.addr i)) ∧
      (relayHeaderSize ≤ pkt.data.length →
        senderOf pkt.data ≠ broadcastDest ∧ ∀ i, senderOf pkt.data ≠ rs.id i)
  | .foreign _ src _ => src.addr ≠ rs.serverAddr.addr
  | _ => True

end Adapter
end SturmRelay
