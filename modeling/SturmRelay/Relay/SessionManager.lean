import SturmRelay.Foundations.Heap
import SturmRelay.Relay.Session

/-! # The session manager

`internal/relay/session.go`: `SessionManager` and its four table operations, `metrics.go`.

The sessions map holds pointers. A `SessionRef` is such a pointer and `heap` is what the pointers
point to: a session that has been deleted from the map is still there for whoever holds its
pointer. An operation returns its error, if any, together with the manager after the call, so a
failing call that has already changed something is visible as such.

`AddPlayerToSession` is cut in two: `detachPlayer` is the removal half of a migration, `admitPlayer`
is everything after it. -/

namespace SturmRelay
set_option autoImplicit false

/-- A `*Session`. -/
abbrev SessionRef := ℕ

def maxTotalSessions : ℕ := 15000
def maxTotalPlayers : ℕ := 50000

structure Metrics where
  packetsRouted : UInt64 := 0
  packetsDropped : UInt64 := 0
  packetsSpoofed : UInt64 := 0
  packetsRateLimited : UInt64 := 0
  bytesRouted : UInt64 := 0
  activeSessions : ℤ := 0
  activePlayers : ℤ := 0
  deriving DecidableEq, Repr

structure SessionManager where
  sessions : Table SessionID SessionRef
  playerIndex : Table PlayerID SessionID
  metrics : Metrics
  heap : Heap Session

def newSessionManager : SessionManager where
  sessions := ∅
  playerIndex := ∅
  metrics := {}
  heap := { next := 0, cell := fun _ => default }

namespace SessionManager

/-- The session a pointer points to. -/
def session (sm : SessionManager) (r : SessionRef) : Session := sm.heap.cell r

def modifySession (r : SessionRef) (f : Session → Session) (sm : SessionManager) : SessionManager :=
  { sm with heap := sm.heap.modify r f }

def addActivePlayers (n : ℤ) (sm : SessionManager) : SessionManager :=
  { sm with metrics := { sm.metrics with activePlayers := sm.metrics.activePlayers + n } }

def addActiveSessions (n : ℤ) (sm : SessionManager) : SessionManager :=
  { sm with metrics := { sm.metrics with activeSessions := sm.metrics.activeSessions + n } }

/-! ## The operations -/

def createSession (id : SessionID) (maxPlayers : ℤ) (now : Instant) (sm : SessionManager) :
    Except SessionError SessionRef × SessionManager :=
  if id ∈ sm.sessions then (.error (.sessionExists id), sm)
  else if maxTotalSessions ≤ sm.sessions.len then (.error (.sessionCapacity maxTotalSessions), sm)
  else
    let r := sm.heap.next
    (.ok r, addActiveSessions 1 { sm with
      heap := sm.heap.alloc (newSession id maxPlayers now)
      sessions := sm.sessions.insert id r })

def getSession (id : SessionID) (sm : SessionManager) : Option SessionRef := sm.sessions.lookup id

/-- The session object keeps its players: only the manager's tables forget them. -/
def deleteSession (id : SessionID) (sm : SessionManager) : Except SessionError Unit × SessionManager :=
  match sm.sessions.lookup id with
  | none => (.error (.sessionNotFound id), sm)
  | some r =>
    let playerIDs := (sm.session r).playerIDs
    (.ok (), addActiveSessions (-1) (addActivePlayers (-(playerIDs.length : ℤ)) { sm with
      playerIndex := sm.playerIndex.eraseAll playerIDs
      sessions := sm.sessions.erase id }))

/-- The removal half of a migration out of the session `existing`. -/
def detachPlayer (existing : SessionID) (playerID : PlayerID) (sm : SessionManager) : SessionManager :=
  let sm := match sm.sessions.lookup existing with
    | none => sm
    | some old => sm.modifySession old fun s => (s.removePlayer playerID).2
  addActivePlayers (-1) { sm with playerIndex := sm.playerIndex.erase playerID }

/-- The rest of a join, once the player is in no other session. -/
def admitPlayer (r : SessionRef) (sessionID : SessionID) (playerID : PlayerID) (login : String)
    (sm : SessionManager) : Except SessionError Unit × SessionManager :=
  if maxTotalPlayers ≤ sm.playerIndex.len then (.error (.playerCapacity maxTotalPlayers), sm)
  else
    match (sm.session r).addPlayer playerID login with
    | .error e => (.error e, sm)
    | .ok s =>
      let sm := sm.modifySession r fun _ => s
      (.ok (), addActivePlayers 1 { sm with playerIndex := sm.playerIndex.insert playerID sessionID })

def addPlayerToSession (sessionID : SessionID) (playerID : PlayerID) (login : String)
    (sm : SessionManager) : Except SessionError Unit × SessionManager :=
  match sm.sessions.lookup sessionID with
  | none => (.error (.sessionNotFound sessionID), sm)
  | some r =>
    match sm.playerIndex.lookup playerID with
    | none => sm.admitPlayer r sessionID playerID login
    | some existing =>
      if existing = sessionID then
        (.ok (), sm.modifySession r (·.resetPlayerTransport playerID))
      else (sm.detachPlayer existing playerID).admitPlayer r sessionID playerID login

def removePlayerFromSession (sessionID : SessionID) (playerID : PlayerID) (sm : SessionManager) :
    Except SessionError Unit × SessionManager :=
  match sm.sessions.lookup sessionID with
  | none => (.error (.sessionNotFound sessionID), sm)
  | some r =>
    let existed := ((sm.session r).removePlayer playerID).1
    let sm := sm.modifySession r fun s => (s.removePlayer playerID).2
    if existed then
      (.ok (), addActivePlayers (-1) { sm with playerIndex := sm.playerIndex.erase playerID })
    else (.error (.playerNotIn playerID sessionID), sm)

def findSessionByPlayer (playerID : PlayerID) (sm : SessionManager) : Option SessionRef :=
  match sm.playerIndex.lookup playerID with
  | none => none
  | some sessionID => sm.sessions.lookup sessionID

def updatePlayerAddr (r : SessionRef) (playerID : PlayerID) (addr : AddrPort) (now : Instant)
    (sm : SessionManager) : PacketVerdict × SessionManager :=
  (((sm.session r).updatePlayerAddr playerID addr now).1,
    sm.modifySession r fun s => (s.updatePlayerAddr playerID addr now).2)

def updatePlayerTCP (r : SessionRef) (playerID : PlayerID) (conn : Conn) (now : Instant)
    (sm : SessionManager) : PacketVerdict × Option Conn × SessionManager :=
  (((sm.session r).updatePlayerTCP playerID conn now).1,
    ((sm.session r).updatePlayerTCP playerID conn now).2.1,
    sm.modifySession r fun s => (s.updatePlayerTCP playerID conn now).2.2)

/-! ## Calls -/

/-- A call of one of the operations that can fail, with its arguments and, for a creation, the
clock reading `NewSession` takes. -/
inductive Call
  | createSession (id : SessionID) (maxPlayers : ℤ) (now : Instant)
  | deleteSession (id : SessionID)
  | addPlayerToSession (sessionID : SessionID) (playerID : PlayerID) (login : String)
  | removePlayerFromSession (sessionID : SessionID) (playerID : PlayerID)
  deriving DecidableEq, Repr

def call (sm : SessionManager) : Call → Except SessionError Unit × SessionManager
  | .createSession id maxPlayers now =>
    ((sm.createSession id maxPlayers now).1.map fun _ => (), (sm.createSession id maxPlayers now).2)
  | .deleteSession id => sm.deleteSession id
  | .addPlayerToSession sessionID playerID login => sm.addPlayerToSession sessionID playerID login
  | .removePlayerFromSession sessionID playerID => sm.removePlayerFromSession sessionID playerID

/-! ## Field lemmas -/

section Fields
variable (sm : SessionManager) (r : SessionRef) (f : Session → Session) (n : ℤ)

@[simp] theorem addActiveSessions_activeSessions :
    (sm.addActiveSessions n).metrics.activeSessions = sm.metrics.activeSessions + n := rfl

@[simp] theorem modifySession_session_self : (sm.modifySession r f).session r = f (sm.session r) :=
  Heap.modify_cell_self sm.heap r f

theorem modifySession_session_ne {r' : SessionRef} (h : r' ≠ r) :
    (sm.modifySession r f).session r' = sm.session r' :=
  Heap.modify_cell_ne sm.heap f h

end Fields

theorem modifySession_eq_self {sm : SessionManager} {r : SessionRef} {f : Session → Session}
    (h : f (sm.session r) = sm.session r) : sm.modifySession r f = sm := by
  unfold modifySession
  rw [Heap.modify_eq_self sm.heap h]

theorem modifySession_congr {sm : SessionManager} {r : SessionRef} {f g : Session → Session}
    (h : f (sm.session r) = g (sm.session r)) : sm.modifySession r f = sm.modifySession r g := by
  unfold modifySession
  rw [Heap.modify_congr sm.heap h]

/-- Removing a player that is not there changes nothing. -/
theorem modifySession_removePlayer_of_notMem {sm : SessionManager} {r : SessionRef}
    {playerID : PlayerID} (h : playerID ∉ (sm.session r).players) :
    (sm.modifySession r fun s => (s.removePlayer playerID).2) = sm := by
  have he : (sm.session r).players.erase playerID = (sm.session r).players :=
    AList.ext (List.kerase_of_notMem_keys h)
  exact modifySession_eq_self (by simp only [Session.removePlayer, he])

end SessionManager

end SturmRelay
