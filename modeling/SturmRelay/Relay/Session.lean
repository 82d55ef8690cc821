import SturmRelay.Foundations.Table
import Mathlib.Data.BitVec

/-! # Game sessions and their players

`internal/relay/session.go`: `PlayerInfo`, `Session` and the operations on one session.

* Instants are nanoseconds since the Unix epoch, so `unix` is `time.Time.Unix`; the zero
  `time.Time` of a player that has not been heard of is `none`.
* A `netip.Addr` is kept with its family and zone, which `netip.Addr` equality compares; the
  16-byte form is what `net.ParseIP` returns and `net.IP.Equal` compares. The invalid
  `netip.AddrPort{}` is `none`.
* A `*PlayerInfo` of the players map is reached only through the map, so an update through the
  pointer is an update of the map's value.
* The two packet updates are split into what they do to the player (`PlayerInfo.receiveUDP`,
  `PlayerInfo.receiveTCP`) and the lookup around it.
-/

namespace SturmRelay
set_option autoImplicit false

/-! ## Time and addresses -/

/-- A clock reading, in nanoseconds since the Unix epoch. -/
abbrev Instant := ℤ

def second : ℤ := 1000000000

/-- `time.Time.Unix`. -/
def unix (now : Instant) : ℤ := now / second

def playerTimeout : ℤ := 90 * second
def sessionEmptyTimeout : ℤ := 120 * second
def maxPacketsPerSecond : UInt32 := 2000

/-- `netip.Addr`, other than the zero value. -/
inductive Addr
  | v4 (bits : BitVec 32)
  | v6 (bits : BitVec 128) (zone : String)
  deriving DecidableEq, Repr

/-- `net.IP` in its 16-byte form, the form `net.ParseIP` returns. -/
abbrev NetIP := BitVec 128

/-- The 16-byte form of an address, an IPv4 address as `::ffff:a.b.c.d`. -/
def Addr.as16 : Addr → NetIP
  | .v4 bits => (0xFFFF : BitVec 96) ++ bits
  | .v6 bits _ => bits

/-- A valid `netip.AddrPort`. -/
structure AddrPort where
  addr : Addr
  port : UInt16
  deriving DecidableEq, Repr

/-- A `net.Conn`: which connection it is, and what `RemoteAddr` reports. -/
structure Conn where
  id : ℕ
  remoteAddr : Option AddrPort
  deriving DecidableEq, Repr

/-- The remote IP of a connection. `net.ParseIP` does not read an address with a zone. -/
def tcpConnIP (conn : Conn) : Option NetIP :=
  match conn.remoteAddr with
  | none => none
  | some remote =>
    match remote.addr with
    | .v4 bits => some (Addr.v4 bits).as16
    | .v6 bits zone => if zone = "" then some bits else none

/-! ## Players -/

abbrev PlayerID := UInt32
abbrev SessionID := String

inductive Transport
  | unset
  | udp
  | tcp
  deriving DecidableEq, Repr

structure PlayerInfo where
  playerID : PlayerID
  login : String
  addr : Option AddrPort := none
  tcpConn : Option Conn := none
  tcpIP : Option NetIP := none
  transport : Transport := .unset
  lastSeen : Option Instant := none
  ratePkts : UInt32 := 0
  rateSecond : ℤ := 0
  deriving DecidableEq, Repr

/-- Why a packet was accepted or rejected. -/
inductive PacketVerdict
  | ok
  | firstAddr
  | unknown
  | spoofed
  | rateLimited
  deriving DecidableEq, Repr

/-- Verdicts after which the packet is routed. -/
def PacketVerdict.accepted : PacketVerdict → Bool
  | .ok => true
  | .firstAddr => true
  | .unknown => false
  | .spoofed => false
  | .rateLimited => false

namespace PlayerInfo

/-- Count a packet against the current second; `ratePkts` is a `uint32` and wraps. -/
def checkRate (p : PlayerInfo) (nowUnix : ℤ) : Bool × PlayerInfo :=
  let p := if p.rateSecond ≠ nowUnix then { p with rateSecond := nowUnix, ratePkts := 0 } else p
  let p := { p with ratePkts := p.ratePkts + 1 }
  (p.ratePkts ≤ maxPacketsPerSecond, p)

/-- What `UpdatePlayerAddr` does to the player. -/
def receiveUDP (p : PlayerInfo) (addr : AddrPort) (now : Instant) : PacketVerdict × PlayerInfo :=
  match p.addr with
  | some pinned =>
    if pinned.addr ≠ addr.addr then (.spoofed, p)
    else accept p
  | none => accept p
where
  /-- The part after the pin check. -/
  accept (p : PlayerInfo) : PacketVerdict × PlayerInfo :=
    match p.checkRate (unix now) with
    | (false, p) => (.rateLimited, p)
    | (true, p) =>
      let wasNew := p.addr.isNone && p.tcpConn.isNone
      -- a TCP connection, if there is one, is forgotten together with its pin
      let p := { p with
        addr := some addr
        tcpIP := if p.tcpConn.isSome then none else p.tcpIP
        tcpConn := none
        transport := .udp
        lastSeen := some now }
      (if wasNew then .firstAddr else .ok, p)

/-- What `UpdatePlayerTCP` does to the player. The middle component is the connection the player
had before, for the caller to close. -/
def receiveTCP (p : PlayerInfo) (conn : Conn) (now : Instant) :
    PacketVerdict × Option Conn × PlayerInfo :=
  if p.tcpIP.isSome ∧ p.tcpIP ≠ tcpConnIP conn then (.spoofed, none, p)
  else
    match p.checkRate (unix now) with
    | (false, p) => (.rateLimited, none, p)
    | (true, p) =>
      let wasNew := p.tcpConn.isNone && p.addr.isNone
      let p' := { p with
        tcpConn := some conn
        tcpIP := if p.tcpIP.isNone then tcpConnIP conn else p.tcpIP
        transport := .tcp
        lastSeen := some now }
      (if wasNew then .firstAddr else .ok, p.tcpConn, p')

/-- Forget where a player is, so that the next packet teaches it again. The rate counter and the
login stay. -/
def resetTransport (p : PlayerInfo) : PlayerInfo :=
  { p with addr := none, tcpConn := none, tcpIP := none, transport := .unset, lastSeen := none }

end PlayerInfo

/-- Where packets for a player go. -/
structure PlayerSendTarget where
  playerID : PlayerID
  udpAddr : Option AddrPort
  tcpConn : Option Conn
  deriving DecidableEq, Repr

/-! ## Errors -/

/-- The errors of the session operations, with the values their texts mention. -/
inductive SessionError
  | playerExists (playerID : PlayerID) (sessionID : SessionID)
  | sessionFull (sessionID : SessionID) (players : ℕ) (maxPlayers : ℤ)
  | sessionExists (sessionID : SessionID)
  | sessionCapacity (limit : ℕ)
  | sessionNotFound (sessionID : SessionID)
  | playerCapacity (limit : ℕ)
  | playerNotIn (playerID : PlayerID) (sessionID : SessionID)
  deriving DecidableEq, Repr

def SessionError.message : SessionError → String
  | .playerExists playerID sessionID =>
    "player " ++ toString playerID ++ " already in session " ++ sessionID
  | .sessionFull sessionID players maxPlayers =>
    "session " ++ sessionID ++ " full (" ++ toString players ++ "/" ++ toString maxPlayers ++ ")"
  | .sessionExists sessionID => "session " ++ sessionID ++ " already exists"
  | .sessionCapacity limit => "server at session capacity (" ++ toString limit ++ ")"
  | .sessionNotFound sessionID => "session " ++ sessionID ++ " not found"
  | .playerCapacity limit => "server at player capacity (" ++ toString limit ++ ")"
  | .playerNotIn playerID sessionID =>
    "player " ++ toString playerID ++ " not in session " ++ sessionID

/-! ## Sessions -/

structure Session where
  id : SessionID
  maxPlayers : ℤ
  createdAt : Instant
  players : Table PlayerID PlayerInfo

instance : Inhabited Session := ⟨⟨"", 0, 0, ∅⟩⟩

def newSession (id : SessionID) (maxPlayers : ℤ) (now : Instant) : Session where
  id := id
  maxPlayers := maxPlayers
  createdAt := now
  players := ∅

namespace Session

def playerCount (s : Session) : ℕ := s.players.len

def playerIDs (s : Session) : List PlayerID := s.players.keys

def addPlayer (playerID : PlayerID) (login : String) (s : Session) : Except SessionError Session :=
  if playerID ∈ s.players then .error (.playerExists playerID s.id)
  else if s.maxPlayers ≤ s.players.len then
    .error (.sessionFull s.id s.players.len s.maxPlayers)
  else .ok { s with players := s.players.insert playerID { playerID := playerID, login := login } }

def resetPlayerTransport (playerID : PlayerID) (s : Session) : Session :=
  { s with players := s.players.adjust playerID PlayerInfo.resetTransport }

/-- `true` if the player was there. -/
def removePlayer (playerID : PlayerID) (s : Session) : Bool × Session :=
  (decide (playerID ∈ s.players), { s with players := s.players.erase playerID })

def updatePlayerAddr (playerID : PlayerID) (addr : AddrPort) (now : Instant) (s : Session) :
    PacketVerdict × Session :=
  match s.players.lookup playerID with
  | none => (.unknown, s)
  | some p =>
    ((p.receiveUDP addr now).1,
      { s with players := s.players.insert playerID (p.receiveUDP addr now).2 })

def updatePlayerTCP (playerID : PlayerID) (conn : Conn) (now : Instant) (s : Session) :
    PacketVerdict × Option Conn × Session :=
  match s.players.lookup playerID with
  | none => (.unknown, none, s)
  | some p =>
    ((p.receiveTCP conn now).1, (p.receiveTCP conn now).2.1,
      { s with players := s.players.insert playerID (p.receiveTCP conn now).2.2 })

/-- The targets `ForEachOtherPlayerTarget` calls its function with, in the order of the loop. -/
def forEachOtherPlayerTarget (o : RangeOrder PlayerID) (excludeID : PlayerID) (s : Session) :
    List PlayerSendTarget :=
  (o.visit s.players.keys).filterMap fun id =>
    match s.players.lookup id with
    | none => none
    | some p =>
      if id ≠ excludeID ∧ (p.tcpConn.isSome ∨ p.addr.isSome) then
        some { playerID := id, udpAddr := p.addr, tcpConn := p.tcpConn }
      else none

def getPlayerTarget (playerID : PlayerID) (s : Session) : Option PlayerSendTarget :=
  (s.players.lookup playerID).map fun p =>
    { playerID := playerID, udpAddr := p.addr, tcpConn := p.tcpConn }

/-! ### Staleness -/

/-- The test of `StalePlayers` and `RemovePlayerIfStale`: a player that never sent a packet is
measured by the age of the session. -/
def isStale (s : Session) (timeout : ℤ) (now : Instant) (p : PlayerInfo) : Bool :=
  match p.lastSeen with
  | none => decide (timeout < now - s.createdAt)
  | some seen => decide (timeout < now - seen)

/-- `isStale` of the player with this ID, if there is one. -/
def staleAt (s : Session) (timeout : ℤ) (now : Instant) (playerID : PlayerID) : Bool :=
  match s.players.lookup playerID with
  | none => false
  | some p => s.isStale timeout now p

def stalePlayers (o : RangeOrder PlayerID) (timeout : ℤ) (now : Instant) (s : Session) :
    List PlayerID :=
  (o.visit s.players.keys).filter (s.staleAt timeout now)

/-- Whether the player was removed, its connection if so, and the session afterwards. -/
def removePlayerIfStale (playerID : PlayerID) (timeout : ℤ) (now : Instant) (s : Session) :
    Bool × Option Conn × Session :=
  match s.players.lookup playerID with
  | none => (false, none, s)
  | some p =>
    if s.isStale timeout now p then
      (true, p.tcpConn, { s with players := s.players.erase playerID })
    else (false, none, s)

/-! ### What the operations leave alone -/

@[simp] theorem removePlayer_fst (playerID : PlayerID) (s : Session) :
    (s.removePlayer playerID).1 = decide (playerID ∈ s.players) := rfl

/-- A session operation that changes players in place: the session's own fields and the set of
its players are as before. -/
structure SameMembers (s s' : Session) : Prop where
  id : s'.id = s.id
  maxPlayers : s'.maxPlayers = s.maxPlayers
  createdAt : s'.createdAt = s.createdAt
  mem : ∀ p, p ∈ s'.players ↔ p ∈ s.players
  len : s'.players.len = s.players.len

theorem SameMembers.refl (s : Session) : SameMembers s s := ⟨rfl, rfl, rfl, fun _ => Iff.rfl, rfl⟩

theorem sameMembers_insert {s : Session} {playerID : PlayerID} (h : playerID ∈ s.players)
    (p : PlayerInfo) : SameMembers s { s with players := s.players.insert playerID p } where
  id := rfl
  maxPlayers := rfl
  createdAt := rfl
  mem q := by
    rw [AList.mem_insert]
    exact ⟨fun hq => hq.elim (fun e => e ▸ h) (fun hq => hq), Or.inr⟩
  len := Table.len_insert_of_mem h p

theorem sameMembers_resetPlayerTransport (playerID : PlayerID) (s : Session) :
    SameMembers s (s.resetPlayerTransport playerID) :=
  ⟨rfl, rfl, rfl, fun _ => Table.mem_adjust, Table.len_adjust _ _ _⟩

theorem sameMembers_updatePlayerAddr (playerID : PlayerID) (addr : AddrPort) (now : Instant)
    (s : Session) : SameMembers s (s.updatePlayerAddr playerID addr now).2 := by
  unfold updatePlayerAddr
  cases h : s.players.lookup playerID with
  | none => exact SameMembers.refl s
  | some p => exact sameMembers_insert (Table.mem_of_lookup h) _

theorem sameMembers_updatePlayerTCP (playerID : PlayerID) (conn : Conn) (now : Instant)
    (s : Session) : SameMembers s (s.updatePlayerTCP playerID conn now).2.2 := by
  unfold updatePlayerTCP
  cases h : s.players.lookup playerID with
  | none => exact SameMembers.refl s
  | some p => exact sameMembers_insert (Table.mem_of_lookup h) _

theorem staleAt_mem {s : Session} {timeout : ℤ} {now : Instant} {playerID : PlayerID}
    (h : s.staleAt timeout now playerID = true) : playerID ∈ s.players := by
  unfold staleAt at h
  cases hp : s.players.lookup playerID with
  | none => simp [hp] at h
  | some p => exact Table.mem_of_lookup hp

theorem mem_stalePlayers {o : RangeOrder PlayerID} {timeout : ℤ} {now : Instant} {s : Session}
    {playerID : PlayerID} :
    playerID ∈ s.stalePlayers o timeout now ↔ s.staleAt timeout now playerID = true := by
  rw [stalePlayers, List.mem_filter, o.mem_visit]
  exact ⟨fun h => h.2, fun h => ⟨AList.mem_keys.mp (staleAt_mem h), h⟩⟩

theorem nodup_stalePlayers (o : RangeOrder PlayerID) (timeout : ℤ) (now : Instant) (s : Session) :
    (s.stalePlayers o timeout now).Nodup :=
  (o.nodup_visit s.players.keys_nodup).filter _

theorem removePlayerIfStale_eq (playerID : PlayerID) (timeout : ℤ) (now : Instant) (s : Session) :
    (s.removePlayerIfStale playerID timeout now).1 = s.staleAt timeout now playerID ∧
    (s.removePlayerIfStale playerID timeout now).2.2 =
      if s.staleAt timeout now playerID then { s with players := s.players.erase playerID } else s := by
  unfold removePlayerIfStale staleAt
  cases h : s.players.lookup playerID with
  | none => simp
  | some p => by_cases hs : s.isStale timeout now p <;> simp [hs]

end Session

end SturmRelay
