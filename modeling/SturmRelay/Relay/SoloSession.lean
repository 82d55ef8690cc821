import SturmRelay.Relay.Connections

/-! # A session on its own

What one game session would be if the server had no other: a session or none, the connections closed
on its behalf, and whether the server is still up. There is no player index, no counter, no limit on
the whole server and no pointer, and of a reaper pass only the readings that concern this session are
left. The server is meant to look like this to the players of each session, whatever the other
sessions do. -/

namespace SturmRelay
set_option autoImplicit false

open SessionManager

/-- The clock readings of a reaper pass that concern one session. -/
structure SoloClock where
  collect : Instant
  scan : Instant
  apply : Instant
  check : PlayerID → Instant

inductive SoloEvent
  | call (c : Call)
  | packet (net : Network) (pkt : Packet)
  | reap (o : RangeOrder PlayerID) (clk : SoloClock)

structure Solo where
  session : Option Session := none
  closed : List Conn := []
  down : Bool := false

inductive SoloReply
  | result (res : Except SessionError Unit)
  | handled (verdict : Option PacketVerdict) (sent : List Sent)
  | reaped
  | crashed

namespace Solo

def create (sid : SessionID) (maxPlayers : ℤ) (now : Instant) :
    Option Session → Except SessionError Unit × Option Session
  | none => (.ok (), some (newSession sid maxPlayers now))
  | some s => (.error (.sessionExists sid), some s)

def delete (sid : SessionID) : Option Session → Except SessionError Unit × Option Session
  | none => (.error (.sessionNotFound sid), none)
  | some _ => (.ok (), none)

def join (sid : SessionID) (p : PlayerID) (login : String) :
    Option Session → Except SessionError Unit × Option Session
  | none => (.error (.sessionNotFound sid), none)
  | some s =>
    if p ∈ s.players then (.ok (), some (s.resetPlayerTransport p))
    else
      match s.addPlayer p login with
      | .error e => (.error e, some s)
      | .ok s' => (.ok (), some s')

def leave (sid : SessionID) (p : PlayerID) : Option Session → Except SessionError Unit × Option Session
  | none => (.error (.sessionNotFound sid), none)
  | some s =>
    if p ∈ s.players then (.ok (), some (s.removePlayer p).2)
    else (.error (.playerNotIn p sid), some s)

def call : Call → Option Session → Except SessionError Unit × Option Session
  | .createSession id maxPlayers now => create id maxPlayers now
  | .deleteSession id => delete id
  | .addPlayerToSession sessionID playerID login => join sessionID playerID login
  | .removePlayerFromSession sessionID playerID => leave sessionID playerID

/-- What a reaper pass leaves of the session, and the connections it closes. -/
def reap (o : RangeOrder PlayerID) (clk : SoloClock) : Option Session → Option Session × List Conn
  | none => (none, [])
  | some s =>
    let stalePIDs := s.stalePlayers o playerTimeout clk.scan
    if 0 < stalePIDs.length ∨ (s.playerCount = 0 ∧ sessionEmptyTimeout < clk.collect - s.createdAt) then
      let reaped := stalePIDs.filter fun p => s.staleAt playerTimeout (clk.check p) p
      let players := s.players.eraseAll reaped
      (if Table.len players = 0 ∧ sessionEmptyTimeout < clk.apply - s.createdAt then none
        else some { s with players := players }, reaped.flatMap (connOf s))
    else (some s, [])

/-- A packet of a player that is in the session. -/
def hear (net : Network) (pkt : Packet) (s : Session) (st : Solo) : Solo × SoloReply :=
  let out := s.updateSender pkt.src (senderOf pkt.data) pkt.now
  if Overruns pkt.order pkt.src pkt.data out.1 out.2.2 then ({ st with down := true }, .crashed)
  else
    ({ st with
        session := some out.2.2
        closed := st.closed ++ closedBy net pkt.src pkt.data out.1 out.2.1 },
      .handled (some out.1) (copiesOf net pkt.order pkt.src pkt.data out.1 out.2.2))

def packet (net : Network) (pkt : Packet) (st : Solo) : Solo × SoloReply :=
  match st.session with
  | none => (st, .handled none [])
  | some s =>
    if senderOf pkt.data ∈ s.players then hear (net.without st.closed) pkt s st
    else (st, .handled none [])

def step (st : Solo) (e : SoloEvent) : Solo × SoloReply :=
  if st.down then (st, .crashed)
  else
    match e with
    | .call c => ({ st with session := (call c st.session).2 }, .result (call c st.session).1)
    | .packet net pkt => packet net pkt st
    | .reap o clk =>
      ({ st with
          session := (reap o clk st.session).1
          closed := st.closed ++ (reap o clk st.session).2 }, .reaped)

end Solo

end SturmRelay
