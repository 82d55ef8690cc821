import SturmRelay.Relay.Connections

/-! # The goroutines that pass packets on

`internal/relay/tcphandler.go` and `Router.Run`, step by step. Every accepted connection has a goroutine in
`handleConn`, the UDP socket has the one of `Router.Run`, and the `Close` of an evicted connection runs in a
goroutine of its own (`Eviction`). Between two steps of one goroutine any other may run: the steps end where
a goroutine takes or leaves the lock of a session, waits for the network, or is about to do either. Targets
are read under the lock and written to one by one; a broadcast keeps the lock until its last write, which
the model does not insist on.

Beside them there are the calls of the session manager, each one step. A panic ends the process. -/

namespace SturmRelay
set_option autoImplicit false

def maxTCPConns : ℕ := 1000

/-- Where `handleConn` stands: at the top of its loop, in `readTCPFrame`, before `FindSessionByPlayer`,
before `UpdatePlayerTCP`, before the answer to an accepted frame, before the writes to the targets that are
left, or returned. -/
inductive HandlerPhase
  | top
  | reading
  | finding (data : Bytes)
  | updating (data : Bytes) (r : SessionRef)
  | answering (data : Bytes) (r : SessionRef)
  | sending (data : Bytes) (targets : List PlayerSendTarget)
  | exited
  deriving DecidableEq, Repr

/-- Where `Router.Run` stands, likewise. -/
inductive RouterPhase
  | reading
  | finding (remoteAddr : AddrPort) (data : Bytes)
  | updating (remoteAddr : AddrPort) (data : Bytes) (r : SessionRef)
  | answering (data : Bytes) (r : SessionRef)
  | sending (data : Bytes) (targets : List PlayerSendTarget)
  deriving DecidableEq, Repr

structure ConnHandler where
  conn : Conn
  phase : HandlerPhase
  deriving DecidableEq, Repr

/-- A goroutine `go oldConn.Close()`, started by the handler of `successor`. -/
structure Eviction where
  old : Conn
  successor : Conn
  deriving DecidableEq, Repr

/-- A frame of `player` came over `conn` and was accepted in the session object `ref`. -/
structure Installation where
  conn : Conn
  ref : SessionRef
  player : PlayerID
  deriving DecidableEq, Repr

structure TCPServer where
  sm : SessionManager := newSessionManager
  fault : Option Fault := none
  /-- Connections accepted so far. -/
  accepted : ℕ := 0
  handlers : List ConnHandler := []
  router : RouterPhase := .reading
  evictions : List Eviction := []
  closed : List Conn := []
  /-- `ctx.Err() != nil`. -/
  cancelled : Bool := false
  /-- An observer's list: the installations after which the player has neither joined again nor been heard
  over UDP. -/
  installations : List Installation := []

/-- `frame` and `readError` are how a `readTCPFrame` ends, `datagram` how a read of the UDP socket does;
`handle` is any other step of a handler and `route` any other step of the router, with the clock, the network
and the map order it meets; `closeOld` is the step of an eviction. -/
inductive TCPEvent
  | accept (remoteAddr : Option AddrPort)
  | frame (i : ℕ) (data : Bytes)
  | readError (i : ℕ)
  | handle (i : ℕ) (now : Instant) (net : Network) (order : RangeOrder PlayerID)
  | datagram (remoteAddr : AddrPort) (data : Bytes)
  | route (now : Instant) (net : Network) (order : RangeOrder PlayerID)
  | closeOld (j : ℕ)
  | cancel
  | call (c : SessionManager.Call)

/-- The targets of a packet that is no echo, as `broadcast` and `unicast` find them; `none` if the player it
is for is not in the session. -/
def Session.passTargets (order : RangeOrder PlayerID) (data : Bytes) (session : Session) :
    Option (List PlayerSendTarget) :=
  if destOf data = broadcastDest then some (session.forEachOtherPlayerTarget order (senderOf data))
  else (session.getPlayerTarget (destOf data)).map fun t => [t]

namespace TCPServer

/-! ## Handlers -/

def setHandler (i : ℕ) (h : ConnHandler) (phase : HandlerPhase) (s : TCPServer) : TCPServer :=
  { s with handlers := s.handlers.set i { h with phase := phase } }

/-- `return`, and the deferred `conn.Close()`. -/
def exit (i : ℕ) (h : ConnHandler) (s : TCPServer) : TCPServer :=
  { s.setHandler i h .exited with closed := s.closed ++ [h.conn] }

def activeConns (s : TCPServer) : ℕ := s.handlers.countP fun h => h.phase ≠ .exited

/-- `Accept` returns a connection that has not been there before. -/
def accept (remoteAddr : Option AddrPort) (s : TCPServer) : TCPServer :=
  let conn : Conn := ⟨s.accepted, remoteAddr⟩
  if maxTCPConns ≤ s.activeConns then
    { s with accepted := s.accepted + 1, closed := s.closed ++ [conn] }
  else { s with accepted := s.accepted + 1, handlers := s.handlers ++ [⟨conn, .top⟩] }

/-- `readTCPFrame` has returned a frame. A read from a closed connection returns an error. -/
def frame (i : ℕ) (data : Bytes) (s : TCPServer) : TCPServer :=
  match s.handlers[i]? with
  | some h =>
    if h.phase = .reading ∧ h.conn ∉ s.closed ∧ 0 < data.length ∧ data.length ≤ maxTCPFramePayload then
      if data.length < relayHeaderSize then { s.setHandler i h .top with sm := s.sm.countDropped }
      else s.setHandler i h (.finding data)
    else s
  | none => s

def readError (i : ℕ) (s : TCPServer) : TCPServer :=
  match s.handlers[i]? with
  | some h => if h.phase = .reading then s.exit i h else s
  | none => s

/-- `FindSessionByPlayer`. -/
def find (i : ℕ) (h : ConnHandler) (data : Bytes) (s : TCPServer) : TCPServer :=
  match s.sm.findSessionByPlayer (senderOf data) with
  | none => { s.setHandler i h .top with sm := s.sm.countDropped }
  | some r => s.setHandler i h (.updating data r)

/-- `UpdatePlayerTCP`, the start of the eviction and the verdict. -/
def update (i : ℕ) (h : ConnHandler) (data : Bytes) (r : SessionRef) (now : Instant) (s : TCPServer) :
    TCPServer :=
  let (verdict, oldConn, sm) := s.sm.updatePlayerTCP r (senderOf data) h.conn now
  let s := { s with
    sm := sm
    evictions := s.evictions ++ (oldConn.filter (· ≠ h.conn)).toList.map (Eviction.mk · h.conn) }
  if verdict.accepted then
    { s.setHandler i h (.answering data r) with
      installations := s.installations ++ [⟨h.conn, r, senderOf data⟩] }
  else
    let s := { s with sm := s.sm.countRejected verdict }
    if verdict = .spoofed then s.exit i h else s.setHandler i h .top

/-- The echo of a hello. -/
def echo (i : ℕ) (h : ConnHandler) (data : Bytes) (net : Network) (s : TCPServer) : TCPServer :=
  match writeTCPFrame data with
  | .error f => { s with fault := some f }
  | .ok bytes =>
    if net.without s.closed (.tcp h.conn) bytes then { s.setHandler i h .top with sm := s.sm.countEchoed }
    else s.exit i h

/-- `sendToTarget` and its counters; the goroutine goes on as in `next`. -/
def send (net : Network) (data : Bytes) (t : PlayerSendTarget) (s next : TCPServer) : TCPServer :=
  match s.sm.deliver (net.without s.closed) data t with
  | .ok (sm, _) => { next with sm := sm }
  | .error f => { s with fault := some f }

/-- A step of handler `i`, and the connections it writes packets for their players to. -/
def handle (i : ℕ) (now : Instant) (net : Network) (order : RangeOrder PlayerID) (s : TCPServer) :
    TCPServer × List Conn :=
  match s.handlers[i]? with
  | none => (s, [])
  | some h =>
    match h.phase with
    | .top => (if s.cancelled then s.exit i h else s.setHandler i h .reading, [])
    | .reading => (s, [])
    | .finding data => (s.find i h data, [])
    | .updating data r => (s.update i h data r now, [])
    | .answering data r =>
      if destOf data = senderOf data then (s.echo i h data net, [])
      else
        match (s.sm.session r).passTargets order data with
        | none => ({ s.setHandler i h .top with sm := s.sm.countDropped }, [])
        | some targets => (s.setHandler i h (.sending data targets), [])
    | .sending _ [] => (s.setHandler i h .top, [])
    | .sending data (t :: rest) =>
      (s.send net data t (s.setHandler i h (.sending data rest)), t.tcpConn.toList)
    | .exited => (s, [])

/-! ## The router -/

/-- A read of the UDP socket. -/
def datagram (remoteAddr : AddrPort) (data : Bytes) (s : TCPServer) : TCPServer :=
  if s.router = .reading ∧ data.length ≤ readBufferSize then
    if data.length < relayHeaderSize then { s with sm := s.sm.countDropped }
    else { s with router := .finding remoteAddr data }
  else s

/-- The player is reached over no connection that an earlier frame has installed. -/
def release (r : SessionRef) (p : PlayerID) (s : TCPServer) : TCPServer :=
  { s with installations := s.installations.filter fun x => !(x.ref = r && x.player = p) }

/-- `UpdatePlayerAddr` and the verdict. -/
def updateAddr (remoteAddr : AddrPort) (data : Bytes) (r : SessionRef) (now : Instant) (s : TCPServer) :
    TCPServer :=
  let (verdict, sm) := s.sm.updatePlayerAddr r (senderOf data) remoteAddr now
  if verdict.accepted then release r (senderOf data) { s with sm := sm, router := .answering data r }
  else { s with sm := sm.countRejected verdict, router := .reading }

/-- A step of `Router.Run`, and the connections it writes packets for their players to. -/
def route (now : Instant) (net : Network) (order : RangeOrder PlayerID) (s : TCPServer) :
    TCPServer × List Conn :=
  match s.router with
  | .reading => (s, [])
  | .finding remoteAddr data =>
    match s.sm.findSessionByPlayer (senderOf data) with
    | none => ({ s with sm := s.sm.countDropped, router := .reading }, [])
    | some r => ({ s with router := .updating remoteAddr data r }, [])
  | .updating remoteAddr data r => (s.updateAddr remoteAddr data r now, [])
  | .answering data r =>
    -- the echo of a hello counts as routed, whether it can be written or not
    if destOf data = senderOf data then ({ s with sm := s.sm.countEchoed, router := .reading }, [])
    else
      match (s.sm.session r).passTargets order data with
      | none => ({ s with sm := s.sm.countDropped, router := .reading }, [])
      | some targets => ({ s with router := .sending data targets }, [])
  | .sending _ [] => ({ s with router := .reading }, [])
  | .sending data (t :: rest) =>
    (s.send net data t { s with router := .sending data rest }, t.tcpConn.toList)

/-! ## Steps -/

/-- A call of the session manager. -/
def call (c : SessionManager.Call) (s : TCPServer) : TCPServer :=
  let called := { s with sm := (s.sm.call c).2 }
  match c, (s.sm.call c).1 with
  | .addPlayerToSession sid p _, .ok _ =>
    match s.sm.sessions.lookup sid with
    | some r => called.release r p
    | none => called
  | _, _ => called

def step (s : TCPServer) (ev : TCPEvent) : TCPServer × List Conn :=
  match s.fault with
  | some _ => (s, [])
  | none =>
    match ev with
    | .accept remoteAddr => (s.accept remoteAddr, [])
    | .frame i data => (s.frame i data, [])
    | .readError i => (s.readError i, [])
    | .handle i now net order => s.handle i now net order
    | .datagram remoteAddr data => (s.datagram remoteAddr data, [])
    | .route now net order => s.route now net order
    | .closeOld j =>
      match s.evictions[j]? with
      | some e => ({ s with closed := s.closed ++ [e.old] }, [])
      | none => (s, [])
    | .cancel => ({ s with cancelled := true }, [])
    | .call c => (s.call c, [])

end TCPServer
end SturmRelay
