import SturmRelay.Foundations.Table
import SturmRelay.Adapter.ICEPeer

/-! # The peer manager

`internal/adapter/peermgr.go`: the tables of relay and ICE peers by player. Every operation holds
`mu` from its first line to its last, so each is one step. ICE peers are objects behind pointers:
restart callbacks compare pointers, and a peer that has left the table is still there for who holds it.

Whether sockets can be bound, agents created and gathering begun is up to the system: `Setup`. The
goroutines started with `go onRestart(msg)` are listed in `restarts`; `Close` can start one, since it
cancels the `Dial` that `run` may be in. -/

namespace SturmRelay
namespace Adapter
set_option autoImplicit false

/-- A relay peer. -/
structure Peer where
  playerID : ℤ
  login : String
  conn : SocketID
  addedOrder : ℕ
  deriving DecidableEq, Repr

/-- A goroutine `go p.onRestart(msg)`. -/
structure Restart where
  peer : PeerRef
  msg : FafIceMsg
  deriving DecidableEq, Repr, Inhabited

structure PeerManager where
  peers : Table ℤ Peer := ∅
  icePeers : Table ℤ PeerRef := ∅
  nextOrder : ℕ := 0
  iceHeap : Heap ICEPeer := ⟨0, default⟩
  /-- How often each socket has been closed. -/
  sockets : Heap ℕ := ⟨0, fun _ => 0⟩
  restarts : List Restart := []

inductive PeerError
  | bind
  | createAgent
  | gatherCandidates
  deriving DecidableEq, Repr

/-- What `net.ListenUDP`, `ice.NewAgent` and `GatherCandidates` answer: success or not. -/
structure Setup where
  listen : Bool
  agent : Bool
  gather : Bool
  deriving DecidableEq, Repr

namespace PeerManager

def closeSocket (k : SocketID) (pm : PeerManager) : PeerManager :=
  { pm with sockets := pm.sockets.modify k (· + 1) }

def openSocket (pm : PeerManager) : PeerManager := { pm with sockets := pm.sockets.alloc 0 }

/-! ## Relay peers -/

def getPeer (pid : ℤ) (pm : PeerManager) : Option Peer := pm.peers.lookup pid

def addPeer (pid : ℤ) (login : String) (setup : Setup) (pm : PeerManager) :
    PeerManager × Except PeerError Peer :=
  match pm.peers.lookup pid with
  | some existing => (pm, .ok existing)
  | none =>
    if setup.listen then
      let peer : Peer := ⟨pid, login, pm.sockets.next, pm.nextOrder + 1⟩
      ({ pm.openSocket with peers := pm.peers.insert pid peer, nextOrder := pm.nextOrder + 1 }, .ok peer)
    else (pm, .error .bind)

/-- `Close` and `delete`, for the relay peer of a player. -/
def dropPeer (pid : ℤ) (pm : PeerManager) : PeerManager :=
  match pm.peers.lookup pid with
  | some peer => { pm.closeSocket peer.conn with peers := pm.peers.erase pid }
  | none => pm

/-! ## ICE peers -/

def getICEPeer (pid : ℤ) (pm : PeerManager) : Option PeerRef := pm.icePeers.lookup pid

/-- `ICEPeer.Close`. -/
def closeICEPeer (drain : Bool) (r : PeerRef) (pm : PeerManager) : PeerManager :=
  let p := pm.iceHeap.cell r
  { pm with
    iceHeap := pm.iceHeap.modify r (ICEPeer.shutdown drain)
    restarts := if p.restartsOnClose drain then pm.restarts ++ [⟨r, {}⟩] else pm.restarts
    sockets := if p.ownsConn then pm.sockets.modify p.conn (· + 1) else pm.sockets }

/-- `NewICEPeer`. A socket it was given stays open when it fails, one it has bound does not. -/
def newICEPeer (pid : ℤ) (login : String) (offerer : Bool) (onRestart : RestartID) (setup : Setup)
    (existingConn : Option SocketID) (pm : PeerManager) : PeerManager × Except PeerError ICEPeer :=
  match existingConn with
  | some conn =>
    if !setup.agent then (pm, .error .createAgent)
    else if !setup.gather then (pm, .error .gatherCandidates)
    else (pm, .ok (.fresh pid login offerer onRestart conn false))
  | none =>
    let conn := pm.sockets.next
    if !setup.listen then (pm, .error .bind)
    else if !setup.agent then (pm.openSocket.closeSocket conn, .error .createAgent)
    else if !setup.gather then (pm.openSocket.closeSocket conn, .error .gatherCandidates)
    else (pm.openSocket, .ok (.fresh pid login offerer onRestart conn true))

/-- Put a peer on the heap and in the table. -/
def storeICEPeer (pid : ℤ) (p : ICEPeer) (pm : PeerManager) : PeerManager :=
  { pm with
    iceHeap := pm.iceHeap.alloc p
    icePeers := pm.icePeers.insert pid pm.iceHeap.next }

def addICEPeer (pid : ℤ) (login : String) (offerer : Bool) (onRestart : RestartID) (setup : Setup)
    (pm : PeerManager) : PeerManager × Except PeerError PeerRef :=
  match pm.icePeers.lookup pid with
  | some existing => (pm, .ok existing)
  | none =>
    match pm.newICEPeer pid login offerer onRestart setup none with
    | (pm', .error e) => (pm', .error e)
    | (pm', .ok p) =>
      let order := pm'.nextOrder + 1
      ({ pm' with nextOrder := order }.storeICEPeer pid { p with addedOrder := order },
        .ok pm'.iceHeap.next)

/-- `ownsConn = false`, `Close` and `delete` for the peer that is replaced. -/
def detach (drain : Bool) (pid : ℤ) (r : PeerRef) (pm : PeerManager) : PeerManager :=
  let pm := { pm with iceHeap := pm.iceHeap.modify r fun p => { p with ownsConn := false } }
  let pm := pm.closeICEPeer drain r
  { pm with icePeers := pm.icePeers.erase pid }

/-- The second half of `ReplaceICEPeer`, from `NewICEPeer` on. -/
def succeed (pid : ℤ) (login : String) (offerer : Bool) (onRestart : RestartID) (setup : Setup)
    (initialMsg : Option FafIceMsg) (inherited : Option ICEPeer) (pm : PeerManager) :
    PeerManager × Except PeerError PeerRef :=
  match pm.newICEPeer pid login offerer onRestart setup (inherited.map ICEPeer.conn) with
  | (pm', .error e) =>
    match inherited with
    | some old => (pm'.closeSocket old.conn, .error e)
    | none => (pm', .error e)
  | (pm', .ok p) =>
    let inheritedOrder := (inherited.map ICEPeer.addedOrder).getD 0
    let nextOrder := if 0 < inheritedOrder then pm'.nextOrder else pm'.nextOrder + 1
    let p := { p with
      addedOrder := if 0 < inheritedOrder then inheritedOrder else nextOrder
      gameAddr := inherited.bind ICEPeer.gameAddr }
    ({ pm' with nextOrder := nextOrder }.storeICEPeer pid (p.preload initialMsg), .ok pm'.iceHeap.next)

def replaceICEPeer (pid : ℤ) (login : String) (offerer : Bool) (onRestart : RestartID) (setup : Setup)
    (drain : PeerRef → Bool) (initialMsg : Option FafIceMsg) (pm : PeerManager) :
    PeerManager × Except PeerError PeerRef :=
  match pm.icePeers.lookup pid with
  | some r =>
    (pm.detach (drain r) pid r).succeed pid login offerer onRestart setup initialMsg
      (some (pm.iceHeap.cell r))
  | none => pm.succeed pid login offerer onRestart setup initialMsg none

/-- `Close` and `delete`, for the ICE peer of a player. -/
def dropICEPeer (drain : PeerRef → Bool) (pid : ℤ) (pm : PeerManager) : PeerManager :=
  match pm.icePeers.lookup pid with
  | some r => { pm.closeICEPeer (drain r) r with icePeers := pm.icePeers.erase pid }
  | none => pm

/-! ## Both kinds -/

def removePeer (drain : PeerRef → Bool) (pid : ℤ) (pm : PeerManager) : PeerManager :=
  (pm.dropPeer pid).dropICEPeer drain pid

/-- The loops of `CloseAll` run over the two tables in any order. -/
def closeAll (order iceOrder : RangeOrder ℤ) (drain : PeerRef → Bool) (pm : PeerManager) :
    PeerManager :=
  let pm := (order.visit pm.peers.keys).foldl (fun pm pid => pm.dropPeer pid) pm
  (iceOrder.visit pm.icePeers.keys).foldl (fun pm pid => pm.dropICEPeer drain pid) pm

/-! ## What the operations leave alone -/

/-- Everything but the sockets. -/
structure SameTables (pm pm' : PeerManager) : Prop where
  peers : pm'.peers = pm.peers
  icePeers : pm'.icePeers = pm.icePeers
  iceHeap : pm'.iceHeap = pm.iceHeap
  restarts : pm'.restarts = pm.restarts

theorem sameTables_newICEPeer (pid : ℤ) (login : String) (offerer : Bool) (onRestart : RestartID)
    (setup : Setup) (existingConn : Option SocketID) (pm : PeerManager) :
    SameTables pm (pm.newICEPeer pid login offerer onRestart setup existingConn).1 := by
  unfold newICEPeer
  cases existingConn <;> dsimp only <;> repeat' split
  all_goals exact ⟨rfl, rfl, rfl, rfl⟩

end PeerManager
end Adapter
end SturmRelay
