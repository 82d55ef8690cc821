import SturmRelay.Adapter.RPCHandler
import SturmRelay.Adapter.RelayConnection
import SturmRelay.Relay.Registration

/-! # A host and a joiner at one relay server

`internal/adapter/adapter.go` and `rpchandler.go`, where they decide between the relay and ICE: the
registration with the server (`ensureRelayReady`), the confirmation of the relay (`confirmRelay`,
`WaitRelayConfirmed`), `hostGame`, and `joinGame` with `isHostOnRelay`.

Two adapters run against one server, each with its goroutines. One event is one request or one packet
at the server, one packet at an adapter, or one step of a call between two such points. Requests and
packets can be lost, and packets can be late or come twice; `Exchange` says what comes of a request.
The server's other clients are events of its own: calls, packets and reaper passes of any kind, so a
registration can be left from an earlier game.

`HostGame.relay`, `JoinCall.status`, `JoinCall.set` and `JoinCall.hostReleased` are for the observer:
no step looks at them. -/

namespace SturmRelay
namespace Adapter
set_option autoImplicit false

open SessionManager (Relay RelayEvent RelayReply relayStep)

def lobbyInitModeAuto : ℤ := 1
def maxMapNameLen : ℕ := 256

/-! ## Requests -/

/-- The fields of the configuration that are read here. `relayServer` is the address it resolves to. -/
structure Config where
  playerID : ℤ
  gameID : ℤ
  login : String
  relayServer : AddrPort
  relayHTTP : String
  useOfficialFAF : Bool
  deriving DecidableEq, Repr

namespace Config

def sessionID (cfg : Config) : SessionID := toString cfg.gameID

/-- The mode `hostGame` decides on for the whole lobby. -/
def useRelay (cfg : Config) (lobbyInitMode : ℤ) : Bool :=
  !cfg.useOfficialFAF && decide (lobbyInitMode ≠ lobbyInitModeAuto)

def createBody (cfg : Config) : Body := { create := some ⟨cfg.sessionID, 32⟩ }

/-- The server reads `player_id` into a `uint32`, so decoding fails for any other number. -/
def joinBody (cfg : Config) : Body :=
  { join :=
      if 0 ≤ cfg.playerID ∧ cfg.playerID < 2 ^ 32 then some ⟨.ofInt cfg.playerID, cfg.login⟩
      else none }

end Config

/-- What comes of a request. A `lost` one does not get to the handlers, or is refused in front of
them, which its sender treats alike; an `unanswered` one is handled, but the answer is lost. -/
inductive Exchange
  | lost
  | unanswered
  | answered
  deriving DecidableEq, Repr

/-- The answer, if it comes back, and the server after the request. A server that has crashed
answers nothing. -/
def Exchange.serve (x : Exchange) (route : Route) (method : Method) (body : Body) (now : Instant)
    (relay : Relay) : Option Response × Relay :=
  let served := relay.sm.serveMux route method body now
  match relay.fault, x with
  | none, .unanswered => (none, { relay with sm := served.2 })
  | none, .answered => (some served.1, { relay with sm := served.2 })
  | _, _ => (none, relay)

/-- The field `player_ids` of a JSON object, empty if there is none. -/
def playerIDsOf : Payload → List PlayerID
  | .info _ _ _ playerIDs => playerIDs
  | _ => []

/-- From the answer to the request on. -/
def isHostOnRelay (resp : Option Response) (hostPlayerID : ℤ) : Bool :=
  match resp with
  | none => false
  | some resp =>
    if resp.status = 404 then false
    else if resp.status ≠ 200 then false
    else (playerIDsOf resp.payload).any fun id => (id.toNat : ℤ) = hostPlayerID

/-! ## Adapters -/

/-- Where the function of `relaySetupOnce` stands: before each request, before its hello. -/
inductive SetupPhase
  | idle
  | health
  | create
  | join
  | hello
  | done
  deriving DecidableEq, Repr

/-- A `HostGame` command handed to the game's queue, and whether that was in relay mode. -/
structure HostGame where
  mapName : String
  relay : Bool
  deriving DecidableEq, Repr

/-- Where a call of `joinGame` stands: before `GetPeer`, before `GetICEPeer`, before the request of
`isHostOnRelay`, before `SetRelayMode`, in `ensureRelayReady`, before `AddPeer` or `AddICEPeer`. -/
inductive JoinPhase
  | getPeer
  | getICEPeer
  | detecting
  | setting
  | readying
  | adding
  | done
  deriving DecidableEq, Repr

structure JoinCall where
  login : String
  pid : ℤ
  phase : JoinPhase := .getPeer
  onRelay : Bool := false
  /-- The status of the answer to `isHostOnRelay`. -/
  status : Option ℕ := none
  /-- The mode the adapter was in when the call had called `SetRelayMode`. -/
  set : Option Bool := none
  /-- The host had released `HostGame` in relay mode when the call was made. -/
  hostReleased : Bool
  deriving DecidableEq, Repr

/-- An adapter, with the fields that are used here. -/
structure LobbyAdapter where
  cfg : Config
  lobbyInitMode : ℤ
  relayConn : RelayConnection
  relayConfirmed : Bool := false
  transportReady : Bool := false
  relaySetup : SetupPhase := .idle
  isHost : Bool := false
  relayMode : Bool := false
  /-- The goroutines of `hostGame` that are in `WaitRelayConfirmed`, by their map names. -/
  waiting : List String := []
  hosted : List HostGame := []
  peerMgr : PeerManager := {}
  calls : List JoinCall := []
  /-- Where it has sent packets from. -/
  endpoints : List Endpoint := []
  /-- The packets the server has sent there. -/
  arriving : List Bytes := []

/-- `NewAdapter`, and the connection `Run` makes. -/
def newAdapter (cfg : Config) (lobbyInitMode : ℤ) : LobbyAdapter where
  cfg := cfg
  lobbyInitMode := lobbyInitMode
  relayConn := newRelayConnection cfg.relayServer (.ofInt cfg.playerID)

/-- The packet in what was written to a socket. -/
def Sent.packet (copy : Sent) : Bytes :=
  match copy.endpoint with
  | .udp _ => copy.bytes
  | .tcp _ => copy.bytes.drop 2

namespace LobbyAdapter

/-! ### Registration -/

/-- `relaySetupOnce.Do`, for a call that does not wait. -/
def ensureRelayReady (a : LobbyAdapter) : LobbyAdapter :=
  match a.relaySetup with
  | .idle => { a with relaySetup := if a.cfg.relayHTTP = "" then .done else .health }
  | _ => a

/-- What `Run` starts once the sockets are there. -/
def run (a : LobbyAdapter) : LobbyAdapter :=
  if a.cfg.useOfficialFAF then { a with transportReady := true } else a.ensureRelayReady

/-- The next request of `ensureRelayReady`. -/
def setup (x : Exchange) (now : Instant) (relay : Relay) (a : LobbyAdapter) : Relay × LobbyAdapter :=
  match a.relaySetup with
  | .health =>
    -- a failed health check is only logged
    ((x.serve .health .get {} now relay).2, { a with relaySetup := .create })
  | .create =>
    let (resp, relay) := x.serve .sessions .post a.cfg.createBody now relay
    let ok := resp.any fun r => r.status = 201 ∨ r.status = 409
    (relay, { a with relaySetup := if ok then .join else .done })
  | .join =>
    let path := a.cfg.sessionID ++ "/join"
    let (resp, relay) := x.serve (.sessionByID path) .post a.cfg.joinBody now relay
    let ok := resp.any fun r => r.status = 200
    (relay, { a with relaySetup := if ok then .hello else .done })
  | _ => (relay, a)

/-! ### Packets -/

/-- What `SendHello` puts into a packet. -/
def hello (a : LobbyAdapter) : Bytes := relayPacketBytes a.relayConn.localID a.relayConn.localID []

/-- A hello of the probe, of the keepalive loop or of `ensureRelayReady` has been sent. -/
def sentHello (src : Endpoint) (a : LobbyAdapter) : LobbyAdapter :=
  { a with
    endpoints := src :: a.endpoints
    relaySetup := if a.relaySetup = .hello then .done else a.relaySetup }

/-- The copies the server has written to the adapter's sockets are on their way. -/
def arrive (reply : RelayReply) (a : LobbyAdapter) : LobbyAdapter :=
  match reply with
  | .handled _ sent _ =>
    { a with
      arriving := a.arriving ++ (sent.filter (·.endpoint ∈ a.endpoints)).map Sent.packet }
  | _ => a

/-- A packet is read, by `ProbeRelayUDP` before the transport is decided and by a receive loop
afterwards. The probe takes no packet but an echo for a confirmation. -/
def receive (k : ℕ) (a : LobbyAdapter) : LobbyAdapter :=
  match a.arriving[k]? with
  | none => a
  | some data =>
    match a.relayConn.receive data with
    | .ok .pong => { a with relayConfirmed := true }
    | .ok (.dispatch _ _ _) =>
      if a.transportReady then { a with relayConfirmed := true } else a
    | _ => a

/-! ### Hosting -/

def hostGame (mapName : String) (a : LobbyAdapter) : LobbyAdapter :=
  if maxMapNameLen < mapName.utf8ByteSize then a
  else
    let useRelay := a.cfg.useRelay a.lobbyInitMode
    let a := { a with isHost := true, relayMode := useRelay }
    if useRelay then { a with waiting := a.waiting ++ [mapName] }
    else { a with hosted := a.hosted ++ [⟨mapName, false⟩] }

/-- A goroutine of `hostGame` goes on, if `WaitRelayConfirmed` lets it. -/
def release (k : ℕ) (a : LobbyAdapter) : LobbyAdapter :=
  match a.waiting[k]? with
  | none => a
  | some mapName =>
    if a.relayConfirmed then
      { a with
        waiting := a.waiting.eraseIdx k
        hosted := a.hosted ++ [⟨mapName, true⟩] }
    else a

/-- `HostGame` has been released to the game in relay mode. -/
def hasReleased (a : LobbyAdapter) : Bool := a.hosted.any HostGame.relay

/-! ### Joining -/

def joinGame (login : String) (pid : ℤ) (hostReleased : Bool) (a : LobbyAdapter) : LobbyAdapter :=
  if maxLoginLen < login.utf8ByteSize ∨ pid ≤ 0 then a
  else { a with calls := a.calls ++ [{ login := login, pid := pid, hostReleased := hostReleased }] }

def setCall (i : ℕ) (call : JoinCall) (a : LobbyAdapter) : LobbyAdapter :=
  { a with calls := a.calls.set i call }

/-- The request of `isHostOnRelay`, unless it is not made. -/
def detect (x : Exchange) (now : Instant) (i : ℕ) (call : JoinCall) (relay : Relay) (a : LobbyAdapter) :
    Relay × LobbyAdapter :=
  if a.lobbyInitMode = lobbyInitModeAuto then (relay, a.setCall i { call with phase := .setting })
  else if a.cfg.relayHTTP = "" then (relay, a.setCall i { call with phase := .setting })
  else
    let (resp, relay) := x.serve (.sessionByID a.cfg.sessionID) .get {} now relay
    (relay, a.setCall i { call with
      phase := .setting
      onRelay := isHostOnRelay resp call.pid
      status := resp.map Response.status })

/-- `AddPeer` or `AddICEPeer`. The restart callback is that of this call. -/
def addPeer (setup : Setup) (i : ℕ) (call : JoinCall) (a : LobbyAdapter) : LobbyAdapter :=
  let peerMgr :=
    if call.onRelay then (a.peerMgr.addPeer call.pid call.login setup).1
    else (a.peerMgr.addICEPeer call.pid call.login false i setup).1
  { a with peerMgr := peerMgr }.setCall i { call with phase := .done }

/-- The next step of call `i`. -/
def join (x : Exchange) (now : Instant) (setup : Setup) (i : ℕ) (relay : Relay) (a : LobbyAdapter) :
    Relay × LobbyAdapter :=
  match a.calls[i]? with
  | none => (relay, a)
  | some call =>
    match call.phase with
    | .getPeer =>
      let found := (a.peerMgr.getPeer call.pid).isSome
      (relay, a.setCall i { call with phase := if found then .done else .getICEPeer })
    | .getICEPeer =>
      let found := (a.peerMgr.getICEPeer call.pid).isSome
      (relay, a.setCall i { call with phase := if found then .done else .detecting })
    | .detecting => a.detect x now i call relay
    | .setting =>
      let a := { a with relayMode := call.onRelay }
      (relay, a.setCall i { call with
        phase := if call.onRelay then .readying else .adding
        set := some a.relayMode })
    | .readying =>
      let a := a.ensureRelayReady
      (relay, if a.relaySetup = .done then a.setCall i { call with phase := .adding } else a)
    | .adding => (relay, a.addPeer setup i call)
    | .done => (relay, a)

end LobbyAdapter

/-! ## The system -/

theorem delivers_hello (src : Endpoint) (a : LobbyAdapter) : src.Delivers a.hello := by
  have hlen : a.hello.length = 8 := by simp [LobbyAdapter.hello, relayPacketBytes]
  cases src with
  | udp addr =>
    change a.hello.length ≤ 1500
    omega
  | tcp conn =>
    change 0 < a.hello.length ∧ a.hello.length ≤ 1400
    omega

inductive Side
  | host
  | joiner
  deriving DecidableEq, Repr

structure Lobby where
  relay : Relay
  host : LobbyAdapter
  joiner : LobbyAdapter

inductive LobbyEvent
  | server (ev : RelayEvent)
  | run (side : Side)
  | setup (side : Side) (x : Exchange) (now : Instant)
  | hello (side : Side) (src : Endpoint) (now : Instant) (order : RangeOrder PlayerID)
  | transportReady (side : Side)
  | receive (side : Side) (k : ℕ)
  | hostGame (mapName : String)
  | release (k : ℕ)
  | joinGame (login : String) (pid : ℤ)
  | join (i : ℕ) (x : Exchange) (now : Instant) (setup : Setup)
  | disconnectFromPeer (pid : ℤ) (drain : PeerRef → Bool)

namespace Lobby

def start (host joiner : Config) (lobbyInitMode : ℤ) : Lobby where
  relay := .start
  host := newAdapter host lobbyInitMode
  joiner := newAdapter joiner lobbyInitMode

def adapter (s : Lobby) : Side → LobbyAdapter
  | .host => s.host
  | .joiner => s.joiner

def setAdapter (side : Side) (a : LobbyAdapter) (s : Lobby) : Lobby :=
  match side with
  | .host => { s with host := a }
  | .joiner => { s with joiner := a }

/-- A step of the server, and what it sends. -/
def serve (net : Network) (ev : RelayEvent) (s : Lobby) : Lobby :=
  let (relay, reply) := relayStep net s.relay ev
  { relay := relay
    host := s.host.arrive reply
    joiner := s.joiner.arrive reply }

def hello (net : Network) (side : Side) (src : Endpoint) (now : Instant) (order : RangeOrder PlayerID)
    (s : Lobby) : Lobby :=
  let a := s.adapter side
  (s.setAdapter side (a.sentHello src)).serve net
    (.packet ⟨src, a.hello, delivers_hello src a, now, order⟩)

def step (net : Network) (s : Lobby) : LobbyEvent → Lobby × Unit
  | .server ev => (s.serve net ev, ())
  | .run side => (s.setAdapter side (s.adapter side).run, ())
  | .setup side x now =>
    let (relay, a) := (s.adapter side).setup x now s.relay
    ({ s with relay := relay }.setAdapter side a, ())
  | .hello side src now order => (s.hello net side src now order, ())
  | .transportReady side => (s.setAdapter side { s.adapter side with transportReady := true }, ())
  | .receive side k => (s.setAdapter side ((s.adapter side).receive k), ())
  | .hostGame mapName => ({ s with host := s.host.hostGame mapName }, ())
  | .release k => ({ s with host := s.host.release k }, ())
  | .joinGame login pid =>
    ({ s with joiner := s.joiner.joinGame login pid s.host.hasReleased }, ())
  | .join i x now setup =>
    let (relay, a) := s.joiner.join x now setup i s.relay
    ({ s with relay := relay, joiner := a }, ())
  | .disconnectFromPeer pid drain =>
    ({ s with joiner :=
        { s.joiner with peerMgr := s.joiner.peerMgr.removePeer drain pid } }, ())

end Lobby
end Adapter
end SturmRelay
